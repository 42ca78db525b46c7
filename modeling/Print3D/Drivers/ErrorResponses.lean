import Print3D.Drivers.Frames

/-! What a response does to the values the driver keeps, whatever its code and its length. -/
namespace Print3D
namespace MakerbotDriver
open Effects

variable {σ : Type} {d d' : MakerbotDriver σ} {cmd : UInt8} {toolcmd : ℤ} {payload : Text}
  {reads' : List SerialRead}

def valueSize (cmd : UInt8) : ℕ := if cmd = 2 then 4 else if cmd = 0 ∨ cmd = 10 then 2 else 0

/-- The code of a response is not that for success, or the value that is asked for is not all there. -/
def IsError (cmd : UInt8) (payload : Text) : Prop :=
  payload.head? ≠ some 0x81 ∨ payload.length < 1 + valueSize cmd

/-- What responses can change, beside the record of what has been received. -/
structure SameValues (d d' : MakerbotDriver σ) : Prop where
  firmwareVersion : d'.firmwareVersion = d.firmwareVersion
  bufferSpace : d'.bufferSpace = d.bufferSpace
  temperature : d'.temperature = d.temperature
  bedTemperature : d'.bedTemperature = d.bedTemperature
  targetTemperature : d'.targetTemperature = d.targetTemperature
  targetBedTemperature : d'.targetBedTemperature = d.targetBedTemperature
  state : d'.state = d.state

/-- `parseResponse` returns, so it reads inside of the payload, and leaves the values as they are. -/
def CarriesNoData (d : MakerbotDriver σ) (cmd : UInt8) (toolcmd : ℤ) : Prop :=
  ∃ rv d', d.parseResponse cmd toolcmd = .ok (rv, d') ∧ SameValues d d'

def cachedTemperature (d : MakerbotDriver σ) (toolcmd : ℤ) : Option ℕ :=
  if toolcmd = 2 then some d.temperature
  else if toolcmd = 30 then some d.bedTemperature
  else if toolcmd = 32 then some d.targetTemperature
  else if toolcmd = 33 then some d.targetBedTemperature
  else none

/-- No value is asked for, or the payload has it and it is the one that the driver has already. -/
def Agrees (d : MakerbotDriver σ) (cmd : UInt8) (toolcmd : ℤ) (payload : Text) : Prop :=
  (cmd = 0 → read16 (payload.drop 1) = .ok d.firmwareVersion) ∧
  (cmd = 2 → read32 (payload.drop 1) = .ok d.bufferSpace) ∧
  (cmd = 10 → d.state ≠ .connecting ∧ ∃ t, read16 (payload.drop 1) = .ok t ∧
    ∀ cached, d.cachedTemperature toolcmd = some cached → t = cached)

theorem SameValues.refl (d : MakerbotDriver σ) : SameValues d d := ⟨rfl, rfl, rfl, rfl, rfl, rfl, rfl⟩

theorem sameValues_storeTemperature_iff (t : ℕ) : SameValues d (d.storeTemperature toolcmd t) ↔
    ∀ cached, d.cachedTemperature toolcmd = some cached → t = cached := by
  unfold storeTemperature cachedTemperature
  constructor
  · intro h cached hc
    split_ifs at h hc
    · exact h.temperature.trans (Option.some.inj hc)
    · exact h.bedTemperature.trans (Option.some.inj hc)
    · exact h.targetTemperature.trans (Option.some.inj hc)
    · exact h.targetBedTemperature.trans (Option.some.inj hc)
  · intro h
    split_ifs at h ⊢
    · exact { SameValues.refl d with temperature := h _ rfl }
    · exact { SameValues.refl d with bedTemperature := h _ rfl }
    · exact { SameValues.refl d with targetTemperature := h _ rfl }
    · exact { SameValues.refl d with targetBedTemperature := h _ rfl }
    · exact .refl d

theorem parseResponse_of_frame (h : Frame d.serial.reads payload reads') :
    d.parseResponse cmd toolcmd = (({ d with
      serial := { d.serial with reads := reads' }
      received := d.received ++ [(cmd, payload)] } : MakerbotDriver σ).interpret cmd toolcmd payload).map
        fun d' => (0, d') := by
  rw [parseResponse, readFrame_of_frame h, bind_ok]
  rfl

theorem storeTemperature_state (t : ℕ) : (d.storeTemperature toolcmd t).state = d.state := by
  unfold storeTemperature
  split_ifs <;> rfl

theorem interpret_sameValues_iff (d : MakerbotDriver σ) (cmd : UInt8) (toolcmd : ℤ) (payload : Text) :
    (∃ d', d.interpret cmd toolcmd payload = .ok d' ∧ SameValues d d') ↔ Agrees d cmd toolcmd payload := by
  unfold interpret Agrees
  by_cases h0 : cmd = 0
  · subst h0
    rw [if_pos rfl, and_iff_left ⟨by simp, by simp⟩, forall_prop_of_true rfl]
    constructor
    · rintro ⟨d', hd', hsame⟩
      obtain ⟨version, hversion, hd'⟩ := bind_eq_ok.mp hd'
      cases hd'
      rw [hversion]
      exact congrArg Except.ok hsame.firmwareVersion
    · intro h
      exact ⟨_, bind_eq_ok.mpr ⟨_, h, rfl⟩, .refl d⟩
  rw [if_neg h0]
  by_cases h2 : cmd = 2
  · subst h2
    rw [if_pos rfl, and_iff_right (by simp), and_iff_left (by simp), forall_prop_of_true rfl]
    constructor
    · rintro ⟨d', hd', hsame⟩
      obtain ⟨space, hspace, hd'⟩ := bind_eq_ok.mp hd'
      cases hd'
      rw [hspace]
      exact congrArg Except.ok hsame.bufferSpace
    · intro h
      exact ⟨_, bind_eq_ok.mpr ⟨_, h, rfl⟩, .refl d⟩
  rw [if_neg h2]
  by_cases h10 : cmd = 10
  · subst h10
    rw [if_pos rfl, and_iff_right (by simp), and_iff_right (by simp), forall_prop_of_true rfl]
    constructor
    · rintro ⟨d', hd', hsame⟩
      obtain ⟨t, ht, hd'⟩ := bind_eq_ok.mp hd'
      cases hd'
      have hstate := hsame.state
      split_ifs at hsame hstate with hconnecting
      · rw [storeTemperature_state] at hconnecting
        rw [hconnecting] at hstate
        cases hstate
      · rw [storeTemperature_state] at hconnecting
        exact ⟨hconnecting, t, ht, (sameValues_storeTemperature_iff t).mp hsame⟩
    · rintro ⟨hstate, t, ht, hcached⟩
      refine ⟨_, bind_eq_ok.mpr ⟨t, ht, rfl⟩, ?_⟩
      rw [if_neg (by rwa [storeTemperature_state])]
      exact (sameValues_storeTemperature_iff t).mpr hcached
  · rw [if_neg h10]
    refine iff_of_true ⟨d, rfl, .refl d⟩ ⟨?_, ?_, ?_⟩
    · exact fun h => absurd h h0
    · exact fun h => absurd h h2
    · exact fun h => absurd h h10

/-- A response leaves the values of the driver as they are if and only if its own value, where the
command asks for one, is the same. -/
theorem carriesNoData_iff (h : Frame d.serial.reads payload reads') :
    CarriesNoData d cmd toolcmd ↔ Agrees d cmd toolcmd payload := by
  let d₁ : MakerbotDriver σ := { d with
    serial := { d.serial with reads := reads' }
    received := d.received ++ [(cmd, payload)] }
  have hagrees : Agrees d₁ cmd toolcmd payload ↔ Agrees d cmd toolcmd payload := Iff.rfl
  rw [CarriesNoData, parseResponse_of_frame h, ← hagrees, ← interpret_sameValues_iff]
  constructor
  · rintro ⟨rv, d', hd', hsame⟩
    obtain ⟨d'', hinterpret, heq⟩ := map_eq_ok.mp hd'
    cases heq
    exact ⟨d', hinterpret, { hsame with }⟩
  · rintro ⟨d', hd', hsame⟩
    exact ⟨0, d', map_eq_ok.mpr ⟨d', hd', rfl⟩, { hsame with }⟩

/-- A command that asks for nothing is refused, which changes nothing. -/
theorem carriesNoData_refused : CarriesNoData
    { gpx := ()
      serial := { reads := Serial.unread (frameBytes [0x82]) [] } } 137 (-1) := by
  apply (carriesNoData_iff (Frame.atOnce (by decide) (by decide) [])).mpr
  exact ⟨nofun, nofun, nofun⟩

/-- The driver asks for the free space and hears that the packet was too big; five bytes are taken for a
number all the same, of which four are not there. -/
theorem not_carriesNoData_tooBig : ¬ ∀ (d : MakerbotDriver Unit) cmd toolcmd payload reads',
    Frame d.serial.reads payload reads' → IsError cmd payload → CarriesNoData d cmd toolcmd := by
  intro h
  have hframe : Frame (Serial.unread (frameBytes [0x82]) []) [0x82] [] := .atOnce (by decide) (by decide) []
  let d : MakerbotDriver Unit :=
    { gpx := ()
      serial := { reads := Serial.unread (frameBytes [0x82]) [] } }
  obtain ⟨-, hspace, -⟩ := (carriesNoData_iff hframe).mp (h d 2 (-1) [0x82] [] hframe (.inl (by decide)))
  cases hspace rfl

end MakerbotDriver
end Print3D
