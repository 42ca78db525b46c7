import Print3D.Drivers.Delivery

/-! How much of the queue one call of `processQueue` sends, by the space the printer has reported. -/
namespace Print3D
namespace MakerbotDriver
open Effects

variable {σ : Type} {d d' d₁ d₂ : MakerbotDriver σ} {command : Text} {queue : List Text} {room : ℕ}

/-! ### The commands that fit -/

/-- How many commands of a queue fit into so many bytes, from the first one on. -/
def fitting : ℕ → List Text → ℕ
  | _, [] => 0
  | room, command :: queue => if command.length ≤ room then fitting (room - command.length) queue + 1 else 0

/-- The numbers of commands that can be sent before the space is used up. -/
def prefixSizes (queue : List Text) (room : ℤ) : Set ℕ :=
  {n | n ≤ queue.length ∧ ((queue.take n).flatten.length : ℤ) ≤ room}

theorem fitting_isGreatest (room : ℕ) (queue : List Text) :
    IsGreatest (prefixSizes queue room) (fitting room queue) := by
  induction queue generalizing room with
  | nil => exact ⟨⟨le_rfl, by simp [fitting]⟩, fun n hn => hn.1⟩
  | cons command queue ih =>
    rw [fitting]
    split_ifs with hfits
    · obtain ⟨⟨hle, hsum⟩, hmax⟩ := ih (room - command.length)
      constructor
      · refine ⟨Nat.succ_le_succ hle, ?_⟩
        rw [List.take_succ_cons, List.flatten_cons, List.length_append]
        omega
      · rintro (_ | n) ⟨hn, hroom⟩
        · exact Nat.zero_le _
        · rw [List.take_succ_cons, List.flatten_cons, List.length_append] at hroom
          exact Nat.succ_le_succ (hmax ⟨Nat.le_of_succ_le_succ hn, by omega⟩)
    · constructor
      · exact ⟨Nat.zero_le _, by simp⟩
      · rintro (_ | n) ⟨hn, hroom⟩
        · exact le_rfl
        · rw [List.take_succ_cons, List.flatten_cons, List.length_append] at hroom
          omega

/-! ### The space that is left -/

theorem interpret_bufferSpace {cmd : UInt8} {toolcmd : ℤ} {buf : Text} (hcmd : cmd ≠ 2)
    (h : d.interpret cmd toolcmd buf = .ok d') : d'.bufferSpace = d.bufferSpace := by
  have hstored : ∀ t, (d.storeTemperature toolcmd t).bufferSpace = d.bufferSpace := by
    intro t
    unfold storeTemperature
    split_ifs <;> rfl
  unfold interpret at h
  split_ifs at h
  · obtain ⟨version, -, h⟩ := bind_eq_ok.mp h
    cases h
    rfl
  · obtain ⟨t, -, h⟩ := bind_eq_ok.mp h
    cases h
    split_ifs
    · exact hstored t
    · exact hstored t
  · cases h
    rfl

theorem parseResponse_bufferSpace {cmd : UInt8} {toolcmd rv : ℤ} (hcmd : cmd ≠ 2)
    (h : d.parseResponse cmd toolcmd = .ok (rv, d')) : d'.bufferSpace = d.bufferSpace := by
  obtain ⟨⟨frame, serial⟩, -, h⟩ := bind_eq_ok.mp h
  cases frame with
  | error rv =>
    cases h
    rfl
  | ok buf =>
    obtain ⟨d₁, hd₁, h⟩ := bind_eq_ok.mp h
    cases h
    have hspace := interpret_bufferSpace hcmd hd₁
    exact hspace

theorem tryPacket_bufferSpace {pktBuf : Text} {cmd : UInt8} {toolcmd rv : ℤ} {n : ℕ} (hcmd : cmd ≠ 2)
    (h : tryPacket pktBuf cmd toolcmd n d = .ok (rv, d')) : d'.bufferSpace = d.bufferSpace := by
  induction n generalizing d with
  | zero => cases h
  | succ n ih =>
    obtain ⟨⟨rv₁, d₁⟩, hd₁, h⟩ := bind_eq_ok.mp h
    have hspace := parseResponse_bufferSpace hcmd hd₁
    have hnote : (d₁.noteResponse rv₁).bufferSpace = d₁.bufferSpace := by
      unfold noteResponse
      split_ifs <;> rfl
    dsimp only at h
    split_ifs at h
    · cases h
      exact hnote.trans hspace
    · exact (ih h).trans (hnote.trans hspace)

theorem sendPacket_bufferSpace {payload : Text} {r : Bool} (hcmd : payload.headD 0 ≠ 2)
    (h : d.sendPacket payload = .ok (r, d')) :
    d'.bufferSpace = d.bufferSpace - UInt32.ofNat payload.length := by
  obtain ⟨⟨⟨rv, stray⟩, serial⟩, -, h⟩ := bind_eq_ok.mp h
  dsimp only at h
  split_ifs at h
  obtain ⟨toolcmd, -, h⟩ := bind_eq_ok.mp h
  obtain ⟨⟨rv', d₁⟩, hd₁, h⟩ := bind_eq_ok.mp h
  cases h
  have hspace := tryPacket_bufferSpace hcmd hd₁
  exact hspace

theorem toNat_sub_five {space : UInt32} (h : 5 ≤ space.toNat) : (space - 5).toNat = space.toNat - 5 :=
  UInt32.toNat_sub_of_le _ _ (UInt32.le_iff_toNat_le.mpr h)

theorem Pass.bufferSpace (hcmd : command.headD 0 ≠ 2) (hspace : 5 ≤ d.bufferSpace.toNat)
    (h : Pass d command d') :
    d'.bufferSpace.toNat + command.length = d.bufferSpace.toNat ∧ 5 ≤ d'.bufferSpace.toNat := by
  obtain ⟨⟨-, hfits⟩, r, hr⟩ := h
  rw [toNat_sub_five hspace] at hfits
  have hlt := d.bufferSpace.toNat_lt
  have hlen : (UInt32.ofNat command.length).toNat = command.length :=
    UInt32.toNat_ofNat_of_lt' (show command.length < 2 ^ 32 by omega)
  have hle : UInt32.ofNat command.length ≤ d.bufferSpace := by
    rw [UInt32.le_iff_toNat_le, hlen]
    omega
  have hsub := UInt32.toNat_sub_of_le _ _ hle
  have hd' := sendPacket_bufferSpace hcmd hr
  have hhand : (d.hand 1).bufferSpace = d.bufferSpace := rfl
  rw [hd', hhand, hsub, hlen]
  omega

/-! ### The loop -/

def sendFirst : ℕ → MakerbotDriver σ → Except Halt (MakerbotDriver σ)
  | 0, d => .ok d
  | n + 1, d => do
    let (_, d) ← (d.hand 1).sendPacket (d.queue.headD [])
    sendFirst n d

/-- The driver comes to the head of the loop in `d'` when it has entered it in `d`. -/
def Rounds (d d' : MakerbotDriver σ) : Prop :=
  Relation.ReflTransGen (fun d d' => ∃ command, Pass d command d') d d'

/-- While commands are sent there stay five bytes that are not used. -/
theorem Rounds.reserve_left (hcmds : ∀ c ∈ d.queue, c.headD 0 ≠ 2) (hspace : 5 ≤ d.bufferSpace.toNat)
    (h : Rounds d d') : (∀ c ∈ d'.queue, c.headD 0 ≠ 2) ∧ 5 ≤ d'.bufferSpace.toNat := by
  induction h with
  | refl => exact ⟨hcmds, hspace⟩
  | tail _ hpass ih =>
    obtain ⟨command, hpass⟩ := hpass
    have hq := hpass.queue
    rw [hq] at ih
    have hcommand := ih.1 command (List.mem_cons_self ..)
    exact ⟨fun c hc => ih.1 c (List.mem_cons_of_mem _ hc), (hpass.bufferSpace hcommand ih.2).2⟩

/-- The loop sends the commands that fit, as long as the reserve is there when it starts. -/
theorem sendCommands_eq (hq : d.queue = queue) (hcmds : ∀ c ∈ queue, c.headD 0 ≠ 2)
    (hspace : 5 ≤ d.bufferSpace.toNat) :
    sendCommands queue d = sendFirst (fitting (d.bufferSpace.toNat - 5) queue) d := by
  induction queue generalizing d with
  | nil => rfl
  | cons command queue ih =>
    rw [sendCommands, fitting, toNat_sub_five hspace]
    by_cases hfits : command.length ≤ d.bufferSpace.toNat - 5
    · have hone : d.hand 1 = { d with queue := queue, handed := d.handed ++ [command] } := by
        simp [MakerbotDriver.hand, hq]
      rw [if_neg (not_lt.mpr hfits), if_pos hfits, sendFirst, hq, List.headD_cons, ← hone]
      -- what follows a `sendPacket` that returns
      cases hsend : (d.hand 1).sendPacket command with
      | error e => rfl
      | ok result =>
        obtain ⟨r, d₁⟩ := result
        have hpass : Pass d command d₁ := by
          refine ⟨⟨by rw [hq]; rfl, ?_⟩, r, hsend⟩
          rw [toNat_sub_five hspace]
          exact hfits
        have hq₁ : d₁.queue = queue := (List.cons.inj (hpass.queue.symm.trans hq)).2
        obtain ⟨hleft, hspace₁⟩ := hpass.bufferSpace (hcmds command (List.mem_cons_self ..)) hspace
        have hroom : d₁.bufferSpace.toNat - 5 = d.bufferSpace.toNat - 5 - command.length := by omega
        rw [bind_ok, bind_ok, ← hroom]
        exact ih hq₁ (fun c hc => hcmds c (List.mem_cons_of_mem _ hc)) hspace₁
    · rw [if_pos (not_le.mp hfits), if_neg hfits]
      rfl

theorem sendFirst_hand {n : ℕ} (h : sendFirst n d = .ok d') : Talks (d.hand n) d' := by
  induction n generalizing d with
  | zero =>
    cases h
    exact (Talks.refl _).of_hand_zero
  | succ n ih =>
    obtain ⟨⟨r, d₁⟩, hd₁, h⟩ := bind_eq_ok.mp h
    have htalks := ((sendPacket_talks hd₁).hand n).trans (ih h)
    rwa [hand_hand, Nat.add_comm] at htalks

/-! ### Ending -/

theorem finishes_handleReadError (serial : Serial) (rv : ℤ) : Finishes (handleReadError serial rv) := by
  unfold handleReadError
  split_ifs <;> exact nofun

theorem finishes_readByte (serial : Serial) (timeout : ℕ) : Finishes (readAndCheckError serial timeout) :=
  (finishes_handleReadError _ _).bind fun _ _ => finishes_ok _

theorem finishes_readInto (serial : Serial) (buflen timeout : ℕ) :
    Finishes (readAndCheckErrorInto serial buflen timeout) :=
  (finishes_handleReadError _ _).bind fun _ _ => finishes_ok _

theorem finishes_readFrame (serial : Serial) : Finishes (readFrame serial) := by
  refine (finishes_readByte _ _).bind fun ⟨rv, s₁⟩ _ => ?_
  dsimp only
  split_ifs
  · exact finishes_ok _
  · exact finishes_ok _
  refine (finishes_readByte _ _).bind fun ⟨len, s₂⟩ _ => ?_
  dsimp only
  split_ifs
  · exact finishes_ok _
  refine (finishes_readInto _ _ _).bind fun ⟨⟨rv, buf⟩, s₃⟩ _ => ?_
  dsimp only
  by_cases hrv : rv ≤ 0
  · rw [if_pos hrv]
    exact finishes_ok _
  rw [if_neg hrv]
  refine (finishes_readByte _ _).bind fun ⟨crc, s₄⟩ _ => ?_
  dsimp only
  split_ifs
  · exact finishes_ok _
  · exact nofun
  · exact finishes_ok _
  · exact finishes_ok _

theorem finishes_interpret (d : MakerbotDriver σ) (cmd : UInt8) (toolcmd : ℤ) (buf : Text) :
    Finishes (d.interpret cmd toolcmd buf) := by
  have hread16 : ∀ buf, Finishes (read16 buf) := by
    intro buf
    unfold read16
    split <;> exact nofun
  have hread32 : ∀ buf, Finishes (read32 buf) := by
    intro buf
    unfold read32
    split <;> exact nofun
  unfold interpret
  split_ifs
  · exact (hread16 _).bind fun _ _ => finishes_ok _
  · exact (hread32 _).bind fun _ _ => finishes_ok _
  · exact (hread16 _).bind fun _ _ => finishes_ok _
  · exact finishes_ok _

theorem finishes_parseResponse (d : MakerbotDriver σ) (cmd : UInt8) (toolcmd : ℤ) :
    Finishes (d.parseResponse cmd toolcmd) := by
  refine (finishes_readFrame _).bind fun ⟨frame, serial⟩ _ => ?_
  cases frame with
  | error rv => exact finishes_ok _
  | ok buf => exact (finishes_interpret _ _ _ _).bind fun _ _ => finishes_ok _

theorem finishes_tryPacket (pktBuf : Text) (cmd : UInt8) (toolcmd : ℤ) (n : ℕ) (d : MakerbotDriver σ) :
    Finishes (tryPacket pktBuf cmd toolcmd n d) := by
  induction n generalizing d with
  | zero => exact nofun
  | succ n ih =>
    refine (finishes_parseResponse _ _ _).bind fun ⟨rv, d₁⟩ _ => ?_
    dsimp only
    split_ifs
    · exact finishes_ok _
    · exact ih _

theorem finishes_toolCommand (payload : Text) : Finishes (toolCommand payload) := by
  unfold toolCommand
  split_ifs
  · exact finishes_defined _
  · exact finishes_ok _

theorem finishes_sendPacket (d : MakerbotDriver σ) (payload : Text) (updateBufferSpace : Bool) :
    Finishes (d.sendPacket payload updateBufferSpace) := by
  refine (finishes_readInto _ _ _).bind fun ⟨⟨rv, stray⟩, serial⟩ _ => ?_
  dsimp only
  split_ifs
  · exact nofun
  refine (finishes_toolCommand payload).bind fun _ _ => ?_
  exact (finishes_tryPacket _ _ _ _ _).bind fun _ _ => finishes_ok _

theorem finishes_sendCommands (queue : List Text) (d : MakerbotDriver σ) : Finishes (sendCommands queue d) := by
  induction queue generalizing d with
  | nil => exact finishes_ok _
  | cons command queue ih =>
    rw [sendCommands]
    split_ifs
    · exact finishes_ok _
    · exact (finishes_sendPacket _ _ _).bind fun _ _ => ih _

theorem finishes_processQueue (d : MakerbotDriver σ) : Finishes d.processQueue := by
  have hspace : Finishes d.requestBufferSpace := (finishes_sendPacket _ _ _).bind fun _ _ => finishes_ok _
  unfold processQueue
  split_ifs
  · refine hspace.bind fun ⟨space, d₁⟩ _ => ?_
    dsimp only
    split_ifs
    · exact finishes_sendCommands _ _
    · exact finishes_ok _
  · exact hspace.bind fun _ _ => finishes_ok _

/-! ### One call -/

/-- What a call of `processQueue` does that has heard of `space` free bytes in the state `d₁`: it sends
the first `n` commands. An empty queue with the printer's buffer empty ends the print. -/
structure Processes (d d₁ : MakerbotDriver σ) (space : ℤ) (n : ℕ) : Prop where
  sends : d.processQueue = (sendFirst n d₁).map fun d' =>
    if d.queue = [] ∧ printerBufferSize ≤ space then { d' with state := .idle } else d'
  nothing : space ≤ 480 → n = 0
  longest : 480 < space → IsGreatest (prefixSizes d.queue (space - 5)) n
  left : ∀ d', d.processQueue = .ok d' → d'.queue = d.queue.drop n
  /-- `bufferSpace_ - 5` does not wrap at the head of the loop. -/
  noWrap : 480 < space → ∀ d', Rounds d₁ d' → 5 ≤ d'.bufferSpace.toNat
  ends : Finishes d.processQueue

/-- More free space than the driver waits for is the number that the printer has sent. -/
theorem toNat_of_i32 {space : UInt32} (h : 480 < i32 space.toNat) : i32 space.toNat = space.toNat := by
  have hlt := space.toNat_lt
  by_cases hbig : 2 ^ 31 ≤ space.toNat
  · have hneg := i32_neg (x := space.toNat) (by exact_mod_cast hbig) (by exact_mod_cast hlt)
    omega
  · exact i32_eq ⟨by omega, by omega⟩

theorem processQueue_empty {space : ℤ} (hq : d.queue = []) (h : d.requestBufferSpace = .ok (space, d₁)) :
    d.processQueue = .ok (if printerBufferSize ≤ space then { d₁ with state := .idle } else d₁) := by
  unfold processQueue
  rw [if_neg (not_not.mpr hq), h, bind_ok]
  by_cases hfull : printerBufferSize ≤ space
  · rw [if_pos hfull]
    exact congrArg Except.ok (if_neg (not_lt.mpr hfull))
  · rw [if_neg hfull]
    exact congrArg Except.ok (if_pos (not_le.mp hfull))

theorem processQueue_nonempty {space : ℤ} (hq : d.queue ≠ []) (h : d.requestBufferSpace = .ok (space, d₁)) :
    d.processQueue = if space > 480 then sendCommands d₁.queue d₁ else .ok d₁ := by
  unfold processQueue
  rw [if_pos hq, h]
  rfl

/-- A call sends nothing, or the longest prefix of the queue that leaves five bytes free. -/
theorem processQueue_flow {space : ℤ} (hcmds : ∀ c ∈ d.queue, c.headD 0 ≠ 2)
    (h : d.requestBufferSpace = .ok (space, d₁)) : ∃ n, Processes d d₁ space n := by
  have hq := (requestBufferSpace_talks h).queue
  have hspace := (requestBufferSpace_eq h).2
  have hcmds₁ : ∀ c ∈ d₁.queue, c.headD 0 ≠ 2 := by rwa [hq]
  -- above the threshold the space is a number that fits an `int`, and the reserve is there
  have hroom : 480 < space → (d₁.bufferSpace.toNat : ℤ) = space := by
    intro hlt
    rw [hspace] at hlt
    rw [hspace, toNat_of_i32 hlt]
  have hleft : ∀ n, d.processQueue = (sendFirst n d₁).map (fun d' =>
      if d.queue = [] ∧ printerBufferSize ≤ space then { d' with state := .idle } else d') →
      ∀ d', d.processQueue = .ok d' → d'.queue = d.queue.drop n := by
    intro n hsends d' hd'
    rw [hsends] at hd'
    obtain ⟨d₂, hd₂, rfl⟩ := map_eq_ok.mp hd'
    have hrest : d₂.queue = d.queue.drop n := by
      rw [(sendFirst_hand hd₂).queue, MakerbotDriver.hand, hq]
    split_ifs
    · exact hrest
    · exact hrest
  have hwraps : 480 < space → ∀ d', Rounds d₁ d' → 5 ≤ d'.bufferSpace.toNat := by
    intro hlt d' hd'
    have hnat := hroom hlt
    exact (hd'.reserve_left hcmds₁ (by omega)).2
  by_cases hlt : 480 < space
  · have hnat := hroom hlt
    have hgreatest := fitting_isGreatest (d₁.bufferSpace.toNat - 5) d.queue
    have hcast : ((d₁.bufferSpace.toNat - 5 : ℕ) : ℤ) = space - 5 := by omega
    rw [hcast] at hgreatest
    have hsends : d.processQueue = (sendFirst (fitting (d₁.bufferSpace.toNat - 5) d.queue) d₁).map (fun d' =>
        if d.queue = [] ∧ printerBufferSize ≤ space then { d' with state := .idle } else d') := by
      by_cases hempty : d.queue = []
      · rw [processQueue_empty hempty h, hempty]
        simp [fitting, sendFirst, Except.map]
      · rw [processQueue_nonempty hempty h, if_pos hlt, sendCommands_eq rfl hcmds₁ (by omega), hq]
        simp only [hempty, false_and, if_false]
        exact (congrFun Except.map_id _).symm
    exact ⟨_, hsends, fun hle => absurd hlt (not_lt.mpr hle), fun _ => hgreatest, hleft _ hsends, hwraps,
      finishes_processQueue d⟩
  · have hsmall : ¬ printerBufferSize ≤ space := by
      rw [printerBufferSize]
      omega
    have hsends : d.processQueue = (sendFirst 0 d₁).map (fun d' =>
        if d.queue = [] ∧ printerBufferSize ≤ space then { d' with state := .idle } else d') := by
      simp only [hsmall, and_false, if_false, sendFirst, Except.map]
      by_cases hempty : d.queue = []
      · rw [processQueue_empty hempty h, if_neg hsmall]
      · rw [processQueue_nonempty hempty h, if_neg hlt]
    exact ⟨0, hsends, fun _ => rfl, fun hgt => absurd hgt hlt, hleft 0 hsends, hwraps, finishes_processQueue d⟩

/-- Three commands in the queue, of which 500 bytes take two. -/
theorem processQueue_flow_two :
    ∃ n, Processes
      { Job.printing.hear (Job.response [129, 244, 1, 0, 0]) with
        queue := [[137, 31], 149 :: List.replicate 480 65, 149 :: List.replicate 480 66] }
      { Job.printing with
        bufferSpace := 500
        queue := [[137, 31], 149 :: List.replicate 480 65, 149 :: List.replicate 480 66]
        serial := { Job.printing.serial with written := Job.printing.serial.written ++ [packet [2]] }
        received := Job.printing.received ++ [(2, [129, 244, 1, 0, 0])] } 500 n := by
  refine processQueue_flow ?_ ?_
  · decide
  · decide +kernel

end MakerbotDriver
end Print3D
