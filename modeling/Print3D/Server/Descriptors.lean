import Print3D.Library.Transition

/-! The descriptors of `Server::start`: those that `select` is given, and the greatest that it looks at. -/
namespace Print3D

/-- What the loop keeps of the descriptors, with those that the driver has registered. -/
structure SelectLoop where
  socketFd : ℕ
  maxFd : ℕ
  masterFds : Finset ℕ
  registeredFds : Finset ℕ := ∅
  clients : List ℕ := []

namespace SelectLoop

/-- A call of the driver; `closeConnection` makes the second one. -/
inductive FdCall
  | registerFileDescriptor (fd : ℕ)
  | unregisterFileDescriptor (fd : ℕ)
  deriving DecidableEq, Repr

/-- The turn of a client: the calls that its commands lead to, and whether it has closed the connection. -/
structure ClientTurn where
  calls : List FdCall := []
  closed : Bool := false
  deriving DecidableEq, Repr

/-- What an iteration finds: a connection, the turns of the clients, and the calls of the update. -/
structure Iteration where
  accepted : Option ℕ := none
  turns : List ClientTurn := []
  update : List FdCall := []
  deriving DecidableEq, Repr

variable (s : SelectLoop)

def call : FdCall → SelectLoop
  | .registerFileDescriptor fd => { s with registeredFds := insert fd s.registeredFds }
  | .unregisterFileDescriptor fd => { s with registeredFds := s.registeredFds.erase fd }

def callAll (calls : List FdCall) : SelectLoop := calls.foldl call s

/-- The calls of `AbstractDriver::openConnection`, by the descriptor of the serial port if it is opened. -/
def openConnection : Option ℕ → List FdCall
  | none => []
  | some fd => [.registerFileDescriptor fd]

/-- The state in front of the loop: the socket is open, and then the driver opens its connection. -/
def start (socketFd : ℕ) (opened : Option ℕ) : SelectLoop :=
  { socketFd := socketFd, maxFd := socketFd, masterFds := {socketFd} : SelectLoop }.callAll
    (openConnection opened)

/-- The set that `select` is given. -/
def readFds : Finset ℕ := s.masterFds ∪ s.registeredFds

def accept (connFd : ℕ) : SelectLoop := { s with
  clients := s.clients ++ [connFd]
  maxFd := if connFd > s.maxFd then connFd else s.maxFd
  masterFds := insert connFd s.masterFds }

/-- The loop over the clients; the descriptor of one that has closed its connection is cleared. -/
def serveClients : List ℕ → List ClientTurn → SelectLoop → SelectLoop
  | [], _, s => { s with clients := [] }
  | fd :: clients, turns, s =>
    let turn := turns.headD {}
    let s := s.callAll turn.calls
    if turn.closed then
      serveClients clients turns.tail { s with masterFds := s.masterFds.erase fd }
    else
      let s := serveClients clients turns.tail s
      { s with clients := fd :: s.clients }

/-- What follows a call of `select`, up to the next one. -/
def iterate (it : Iteration) : SelectLoop :=
  let s := it.accepted.elim s s.accept
  let s := serveClients s.clients it.turns s
  s.callAll it.update

def Step (s : SelectLoop) (it : Iteration) (s' : SelectLoop) : Prop := s' = s.iterate it

/-- `select` looks at every descriptor of its set. -/
def Covered : Prop := ∀ fd ∈ s.readFds, fd ≤ s.maxFd

def accepted (its : List Iteration) : List ℕ := its.filterMap (·.accepted)

variable {s} {s' s'' : SelectLoop} {socketFd : ℕ} {opened : Option ℕ} {its : List Iteration} {fds : List ℕ}

/-! ### What a step does to the bound -/

/-- The bound stays, and no descriptor is added to the set it was made for. -/
structure Keeps (s s' : SelectLoop) : Prop where
  maxFd : s'.maxFd = s.maxFd
  masterFds : s'.masterFds ⊆ s.masterFds

theorem Keeps.refl (s : SelectLoop) : Keeps s s := ⟨rfl, subset_rfl⟩

theorem Keeps.trans (h : Keeps s s') (h' : Keeps s' s'') : Keeps s s'' :=
  ⟨h'.maxFd.trans h.maxFd, h'.masterFds.trans h.masterFds⟩

theorem keeps_call (s : SelectLoop) (c : FdCall) : Keeps s (s.call c) := by
  cases c <;> exact ⟨rfl, subset_rfl⟩

theorem keeps_callAll (s : SelectLoop) (calls : List FdCall) : Keeps s (s.callAll calls) := by
  induction calls generalizing s with
  | nil => exact Keeps.refl s
  | cons c calls ih => exact (keeps_call s c).trans (ih (s.call c))

theorem keeps_serveClients (clients : List ℕ) (turns : List ClientTurn) (s : SelectLoop) :
    Keeps s (serveClients clients turns s) := by
  induction clients generalizing turns s with
  | nil => exact ⟨rfl, subset_rfl⟩
  | cons fd clients ih =>
    have hcalls := keeps_callAll s (turns.headD {}).calls
    rw [serveClients]
    split_ifs
    · have herase : Keeps (s.callAll (turns.headD {}).calls) { s.callAll (turns.headD {}).calls with
          masterFds := (s.callAll (turns.headD {}).calls).masterFds.erase fd } :=
        ⟨rfl, Finset.erase_subset ..⟩
      exact (hcalls.trans herase).trans (ih turns.tail _)
    · have hrest := hcalls.trans (ih turns.tail _)
      exact ⟨hrest.maxFd, hrest.masterFds⟩

/-- The bound is the greatest of the socket and of the connections accepted so far. -/
structure Bounds (socketFd : ℕ) (fds : List ℕ) (s : SelectLoop) : Prop where
  le_maxFd_iff : ∀ fd, fd ≤ s.maxFd ↔ fd ≤ socketFd ∨ ∃ connFd ∈ fds, fd ≤ connFd
  master_le : ∀ fd ∈ s.masterFds, fd ≤ s.maxFd

theorem Bounds.keeps (h : Bounds socketFd fds s) (hk : Keeps s s') : Bounds socketFd fds s' := by
  constructor
  · intro fd
    rw [hk.maxFd]
    exact h.le_maxFd_iff fd
  · intro fd hfd
    rw [hk.maxFd]
    exact h.master_le fd (hk.masterFds hfd)

theorem Bounds.accept (h : Bounds socketFd fds s) (connFd : ℕ) :
    Bounds socketFd (fds ++ [connFd]) (s.accept connFd) := by
  have hmax : (s.accept connFd).maxFd = max s.maxFd connFd := by
    rw [SelectLoop.accept]
    dsimp only
    split_ifs <;> omega
  constructor
  · intro fd
    rw [hmax, le_max_iff, h.le_maxFd_iff, or_assoc]
    simp [or_and_right, exists_or]
  · intro fd hfd
    rw [hmax]
    rcases Finset.mem_insert.mp hfd with rfl | hfd
    · exact le_max_right ..
    · exact (h.master_le fd hfd).trans (le_max_left ..)

theorem Bounds.iterate (h : Bounds socketFd fds s) (it : Iteration) :
    Bounds socketFd (fds ++ it.accepted.toList) (s.iterate it) := by
  have hserved : ∀ s₁ : SelectLoop, Keeps s₁ ((serveClients s₁.clients it.turns s₁).callAll it.update) :=
    fun s₁ => (keeps_serveClients _ _ s₁).trans (keeps_callAll _ _)
  rw [SelectLoop.iterate]
  cases it.accepted with
  | none =>
    rw [Option.toList_none, List.append_nil]
    exact h.keeps (hserved s)
  | some connFd => exact (h.accept connFd).keeps (hserved (s.accept connFd))

theorem bounds_start (socketFd : ℕ) (opened : Option ℕ) : Bounds socketFd [] (start socketFd opened) := by
  refine Bounds.keeps ?_ (keeps_callAll _ _)
  constructor
  · intro fd
    simp
  · intro fd hfd
    exact (Finset.mem_singleton.mp hfd).le

/-- What the loop adds to the bound are the connections: the registered descriptors do not count. -/
theorem Bounds.covered_iff (h : Bounds socketFd fds s) :
    s.Covered ↔ ∀ fd ∈ s.registeredFds, fd ≤ socketFd ∨ ∃ connFd ∈ fds, fd ≤ connFd := by
  constructor
  · intro hcovered fd hfd
    exact (h.le_maxFd_iff fd).mp (hcovered fd (Finset.mem_union_right _ hfd))
  · intro hregistered fd hfd
    rcases Finset.mem_union.mp hfd with hfd | hfd
    · exact h.master_le fd hfd
    · exact (h.le_maxFd_iff fd).mpr (hregistered fd hfd)

/-! ### Runs -/

theorem accepted_append (its : List Iteration) (it : Iteration) :
    accepted (its ++ [it]) = accepted its ++ it.accepted.toList := by
  rw [accepted, List.filterMap_append, ← accepted]
  cases h : it.accepted <;> simp [h]

theorem bounds_run (h : Transition.Run Step (start socketFd opened) its s) :
    Bounds socketFd (accepted its) s := by
  refine h.invariant_history (fun its s => Bounds socketFd (accepted its) s) ?_ (bounds_start socketFd opened)
  rintro its s it _ hbounds rfl
  rw [accepted_append]
  exact hbounds.iterate it

/-- The first call of `select` looks at the serial port only if its descriptor is not above the socket. -/
theorem covered_start_iff (socketFd : ℕ) (opened : Option ℕ) :
    (start socketFd opened).Covered ↔ ∀ fd ∈ opened, fd ≤ socketFd := by
  rw [(bounds_start socketFd opened).covered_iff]
  cases opened <;> simp [start, callAll, openConnection, call]

/-- Whatever the clients and the driver do: all calls of `select` look at all descriptors if and only if,
at each of them, no registered descriptor is above the socket and all connections accepted before. -/
theorem selectsCovered_iff (socketFd : ℕ) (opened : Option ℕ) (its : List Iteration) :
    (∀ before s, before <+: its → Transition.Run Step (start socketFd opened) before s → s.Covered) ↔
      ∀ before s, before <+: its → Transition.Run Step (start socketFd opened) before s →
        ∀ fd ∈ s.registeredFds, fd ≤ socketFd ∨ ∃ connFd ∈ accepted before, fd ≤ connFd := by
  constructor
  · intro h before s hbefore hrun
    exact (bounds_run hrun).covered_iff.mp (h before s hbefore hrun)
  · intro h before s hbefore hrun
    exact (bounds_run hrun).covered_iff.mpr (h before s hbefore hrun)

/-- The serial port is opened after the socket, and nobody has connected yet. -/
theorem not_selectsCovered_opened : ¬ ∀ socketFd opened its before s, before <+: its →
    Transition.Run Step (start socketFd opened) before s → s.Covered := by
  intro h
  have hcovered := h 3 (some 4) [] [] _ List.prefix_rfl (.nil _)
  have hle := (covered_start_iff 3 (some 4)).mp hcovered 4 rfl
  omega

end SelectLoop
end Print3D
