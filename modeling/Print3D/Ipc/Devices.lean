import Print3D.Basic
import Print3D.Library.Sentinel

/-! The search for printers in `ipc_shared.c`: the entries of `/dev` with the name of a serial device
are collected in an array that grows by one cell at a time. -/
namespace Print3D
open Sentinel

/-- What `opendir` and `readdir` find. -/
structure Dirent where
  name : Text
  type : ℕ
  ends : 0 ∉ name

def dtChr : ℕ := 2

/-- The platforms, which differ in the names of their devices. -/
inductive Platform
  | apple
  | linux
  deriving DecidableEq, Repr

def Platform.names : Platform → List Text
  | apple => [ascii "tty.usbmodem", ascii "tty.usbserial-"]
  | linux => [ascii "ttyACM", ascii "ttyUSB"]

/-- For which numbers of cells there is memory, and for which of the copied names. -/
structure Grants where
  cells : ℕ → Bool
  copies : ℕ → Bool

/-- The pointer to the `i`-th copy. -/
def Grants.strdup (grants : Grants) (i : ℕ) (name : Text) : Cell Text :=
  if grants.copies i then .item name else .null

/-- The array, and the position that is written next. -/
structure DeviceList where
  result : List (Cell Text)
  resultPos : ℕ
  room : resultPos < result.length

variable (platform : Platform) (grants : Grants)

def DeviceList.start : DeviceList := ⟨[.null, .null, .null], 0, by decide⟩

/-- The name is copied to the next position; `none` where there is no memory for one more cell. -/
def DeviceList.push (list : DeviceList) (name : Text) : Option DeviceList :=
  if h : list.resultPos + 1 ≥ list.result.length then
    if grants.cells (list.result.length + 1) then
      some ⟨(list.result ++ [Cell.unspecified]).set list.resultPos (grants.strdup list.resultPos name),
        list.resultPos + 1, by simpa using list.room⟩
    else none
  else
    some ⟨list.result.set list.resultPos (grants.strdup list.resultPos name), list.resultPos + 1,
      by simpa using h⟩

/-- The loop over the names for one entry. -/
def addEntry (list : DeviceList) (ent : Dirent) : Option DeviceList :=
  platform.names.foldlM (fun list name =>
    if ent.type = dtChr ∧ name <+: ent.name then list.push grants ent.name else some list) list

/-- `NULL` is `none`. -/
def ipcFindDevices (dir : Option (List Dirent)) : Option (List (Cell Text)) :=
  if grants.cells 3 then do
    let entries ← dir
    let list ← entries.foldlM (addEntry platform grants) .start
    return list.result
  else none

/-- The names that are freed; `none` where the loop reads a cell that has not been written, or one
outside of the array. -/
def ipcFreeDeviceList : Option (List (Cell Text)) → Option (List Text)
  | none => some []
  | some list => scan list

/-! ### The devices -/

def IsDevice (ent : Dirent) : Prop := ent.type = dtChr ∧ ∃ name ∈ platform.names, name <+: ent.name

instance : DecidablePred (IsDevice platform) := fun ent =>
  inferInstanceAs (Decidable (ent.type = dtChr ∧ ∃ name ∈ platform.names, name <+: ent.name))

def deviceNames (entries : List Dirent) : List Text :=
  (entries.filter (IsDevice platform)).map (·.name)

variable {platform grants} {list list' : DeviceList} {name : Text} {written : List (Cell Text)}
  {names : List Text}

/-- No name of an entry begins with two of the names. -/
theorem addEntry_eq (list : DeviceList) (ent : Dirent) : addEntry platform grants list ent =
    if IsDevice platform ent then list.push grants ent.name else some list := by
  have hone : ∀ {a b : Text}, ¬ a <+: b → ¬ b <+: a → ¬ (a <+: ent.name ∧ b <+: ent.name) := by
    rintro a b hab hba ⟨ha, hb⟩
    exact (List.prefix_or_prefix_of_prefix ha hb).elim hab hba
  have htwo : ∀ a b, platform.names = [a, b] → ¬ (a <+: ent.name ∧ b <+: ent.name) →
      addEntry platform grants list ent =
        if IsDevice platform ent then list.push grants ent.name else some list := by
    intro a b hnames hnot
    simp only [addEntry, IsDevice, hnames, List.foldlM_cons, List.foldlM_nil, List.exists_mem_cons_iff]
    by_cases htype : ent.type = dtChr
    · by_cases ha : a <+: ent.name
      · have hb : ¬ b <+: ent.name := fun hb => hnot ⟨ha, hb⟩
        simp [htype, ha, hb]
      · by_cases hb : b <+: ent.name <;> simp [htype, ha, hb]
    · simp [htype]
  cases platform with
  | apple => exact htwo _ _ rfl (hone (by decide) (by decide))
  | linux => exact htwo _ _ rfl (hone (by decide) (by decide))

theorem foldlM_addEntry (entries : List Dirent) (list : DeviceList) :
    entries.foldlM (addEntry platform grants) list =
      (deviceNames platform entries).foldlM (DeviceList.push grants) list := by
  induction entries generalizing list with
  | nil => rfl
  | cons ent entries ih =>
    rw [List.foldlM_cons, addEntry_eq, deviceNames, List.filter_cons]
    by_cases hdevice : IsDevice platform ent
    · rw [if_pos hdevice, if_pos (decide_eq_true hdevice), List.map_cons, List.foldlM_cons]
      exact congrArg _ (funext ih)
    · rw [if_neg hdevice, if_neg (by simpa using hdevice)]
      exact ih list

/-! ### The array -/

/-- The cells behind `n` that have been written: nulls from the start, later a new one. -/
def unusedCells (n : ℕ) : List (Cell Text) := if n < 3 then List.replicate (3 - n) .null else [.unspecified]

/-- The array holds what has been written. -/
structure DeviceList.Holds (list : DeviceList) (written : List (Cell Text)) : Prop where
  pos : list.resultPos = written.length
  result : list.result = written ++ unusedCells written.length

theorem holds_start : DeviceList.start.Holds [] := ⟨rfl, rfl⟩

/-- The pointers to the copies of names, from the `i`-th on. -/
def copiesFrom (grants : Grants) : ℕ → List Text → List (Cell Text)
  | _, [] => []
  | i, name :: names => grants.strdup i name :: copiesFrom grants (i + 1) names

theorem unusedCells_of_lt {n : ℕ} (h : n < 2) : unusedCells n = .null :: unusedCells (n + 1) := by
  have hn : 3 - n = 3 - (n + 1) + 1 := by omega
  rw [unusedCells, unusedCells, if_pos (by omega), if_pos (by omega), hn, List.replicate_succ]

theorem unusedCells_of_ge {n : ℕ} (h : 2 ≤ n) : ∃ c, unusedCells n = [c] := by
  rw [unusedCells]
  split_ifs with hn
  · have hone : 3 - n = 1 := by omega
    exact ⟨.null, by rw [hone]; rfl⟩
  · exact ⟨.unspecified, rfl⟩

theorem set_behind (written : List (Cell Text)) (c c' : Cell Text) (cells : List (Cell Text)) :
    (written ++ c :: cells).set written.length c' = written ++ [c'] ++ cells := by
  rw [List.set_append_right _ _ le_rfl, Nat.sub_self, List.set_cons_zero, List.append_assoc]
  rfl

/-- From the third name on, a name takes a new cell. -/
theorem DeviceList.Holds.push (h : list.Holds written) (grants : Grants) (name : Text) :
    (∃ list', list.push grants name = some list' ∧
      list'.Holds (written ++ [grants.strdup written.length name])) ∨
    (2 ≤ written.length ∧ grants.cells (written.length + 2) = false ∧ list.push grants name = none) := by
  obtain ⟨hpos, hresult⟩ := h
  have hlen : ∀ c : Cell Text, (written ++ [c]).length = written.length + 1 := fun c => by simp
  by_cases hn : written.length < 2
  · have hroom : ¬ list.resultPos + 1 ≥ list.result.length := by
      rw [hpos, hresult, unusedCells, if_pos (by omega), List.length_append, List.length_replicate]
      omega
    left
    refine ⟨_, dif_neg hroom, ?_, ?_⟩
    · simp [hpos]
    · dsimp only
      rw [hpos, hresult, unusedCells_of_lt hn, set_behind, hlen]
  · obtain ⟨c, hc⟩ := unusedCells_of_ge (le_of_not_gt hn)
    rw [hc] at hresult
    have hfull : list.resultPos + 1 ≥ list.result.length := by
      rw [hpos, hresult, hlen]
    have hcells : list.result.length + 1 = written.length + 2 := by
      rw [hresult, hlen]
    by_cases hgrant : grants.cells (written.length + 2) = true
    · left
      refine ⟨_, (dif_pos hfull).trans (if_pos (by rw [hcells, hgrant])), ?_, ?_⟩
      · simp [hpos]
      · dsimp only
        rw [hpos, hresult, List.append_assoc, List.singleton_append, set_behind, hlen, unusedCells,
          if_neg (by omega)]
    · right
      have hrefused := (Bool.not_eq_true _).mp hgrant
      refine ⟨le_of_not_gt hn, hrefused, (dif_pos hfull).trans (if_neg ?_)⟩
      rw [hcells, hrefused]
      exact Bool.false_ne_true

theorem DeviceList.Holds.foldlM_push (h : list.Holds written) (grants : Grants) (names : List Text) :
    (∃ list', names.foldlM (DeviceList.push grants) list = some list' ∧
      list'.Holds (written ++ copiesFrom grants written.length names)) ∨
    (∃ n, 4 ≤ n ∧ n < written.length + names.length + 2 ∧ grants.cells n = false ∧
      names.foldlM (DeviceList.push grants) list = none) := by
  induction names generalizing list written with
  | nil =>
    left
    refine ⟨list, rfl, ?_⟩
    rwa [copiesFrom, List.append_nil]
  | cons name names ih =>
    rw [List.foldlM_cons, List.length_cons]
    rcases h.push grants name with ⟨list₁, hpush, h₁⟩ | ⟨hn, hrefused, hpush⟩
    · rw [hpush, Option.bind_eq_bind, Option.bind_some]
      have hlen : (written ++ [grants.strdup written.length name]).length = written.length + 1 := by simp
      rcases ih h₁ with ⟨list', hfold, h'⟩ | ⟨n, hn, hlt, hrefused, hfold⟩
      · left
        rw [hlen, List.append_assoc] at h'
        exact ⟨list', hfold, h'⟩
      · right
        exact ⟨n, hn, by omega, hrefused, hfold⟩
    · right
      exact ⟨written.length + 2, by omega, by omega, hrefused, by rw [hpush]; rfl⟩

theorem length_copiesFrom (grants : Grants) (i : ℕ) (names : List Text) :
    (copiesFrom grants i names).length = names.length := by
  induction names generalizing i with
  | nil => rfl
  | cons name names ih => rw [copiesFrom, List.length_cons, List.length_cons, ih]

theorem copiesFrom_eq_iff (grants : Grants) (i : ℕ) (names : List Text) :
    copiesFrom grants i names = names.map .item ↔ ∀ j < names.length, grants.copies (i + j) = true := by
  induction names generalizing i with
  | nil => simp [copiesFrom]
  | cons name names ih =>
    have hcopy : grants.strdup i name = .item name ↔ grants.copies i = true := by
      rw [Grants.strdup]
      split_ifs with hgrant <;> simp [hgrant]
    rw [copiesFrom, List.map_cons, List.cons.injEq, hcopy, ih, List.length_cons]
    constructor
    · rintro ⟨hfirst, hrest⟩ j hj
      cases j with
      | zero => exact hfirst
      | succ j => exact Nat.add_right_comm i 1 j ▸ hrest j (Nat.lt_of_succ_lt_succ hj)
    · intro hall
      refine ⟨hall 0 (Nat.succ_pos _), fun j hj => ?_⟩
      exact Nat.add_right_comm i 1 j ▸ hall (j + 1) (Nat.succ_lt_succ hj)

/-! ### The list -/

theorem ipcFindDevices_cases (hstart : grants.cells 3 = true) (entries : List Dirent) :
    (∃ list : DeviceList, ipcFindDevices platform grants (some entries) = some list.result ∧
      list.Holds (copiesFrom grants 0 (deviceNames platform entries))) ∨
    (∃ n, 4 ≤ n ∧ n < (deviceNames platform entries).length + 2 ∧ grants.cells n = false ∧
      ipcFindDevices platform grants (some entries) = none) := by
  rw [ipcFindDevices, if_pos hstart, Option.bind_eq_bind, Option.bind_some, foldlM_addEntry]
  rcases holds_start.foldlM_push grants (deviceNames platform entries) with
    ⟨list, hfold, hlist⟩ | ⟨n, hn, hlt, hrefused, hfold⟩
  · left
    exact ⟨list, by rw [hfold]; rfl, hlist⟩
  · right
    rw [List.length_nil, Nat.zero_add] at hlt
    exact ⟨n, hn, hlt, hrefused, by rw [hfold]; rfl⟩

theorem ipcFindDevices_eq_none {dir : Option (List Dirent)} (h : ipcFindDevices platform grants dir = none) :
    dir = none ∨ ∃ n, 3 ≤ n ∧ grants.cells n = false := by
  cases dir with
  | none => exact .inl rfl
  | some entries =>
    right
    by_cases hstart : grants.cells 3 = true
    · rcases ipcFindDevices_cases hstart entries with ⟨list, hfind, -⟩ | ⟨n, hn, -, hrefused, -⟩
      · rw [hfind] at h
        cases h
      · exact ⟨n, by omega, hrefused⟩
    · exact ⟨3, le_rfl, (Bool.not_eq_true _).mp hstart⟩

/-- What is returned are the names of the devices, with a null behind them in the array, and the loops
over them stop there. -/
def ListsDevices (platform : Platform) (grants : Grants) (entries : List Dirent) : Prop :=
  ∃ cells, ipcFindDevices platform grants (some entries) = some cells ∧
    Terminated cells (deviceNames platform entries) ∧
    ipcFreeDeviceList (some cells) = some (deviceNames platform entries)

theorem head?_unusedCells (n : ℕ) : (unusedCells n).head? = some .null ↔ n ≤ 2 := by
  rw [unusedCells]
  split_ifs with hn
  · have hsucc : 3 - n = 2 - n + 1 := by omega
    rw [hsucc, List.replicate_succ]
    exact iff_of_true rfl (by omega)
  · refine iff_of_false ?_ (by omega)
    intro h
    cases h

/-- The array with the copies of names is terminated if none of these is refused, and a null is left. -/
theorem DeviceList.Holds.terminated_iff (h : list.Holds (copiesFrom grants 0 names)) :
    Terminated list.result names ↔ names.length ≤ 2 ∧ ∀ i < names.length, grants.copies i = true := by
  have hlen := length_copiesFrom grants 0 names
  have hcopies := copiesFrom_eq_iff grants 0 names
  simp only [Nat.zero_add] at hcopies
  rw [h.result, terminated_append_iff hlen, hcopies, hlen, head?_unusedCells]
  exact and_comm

/-- The list of the devices is terminated if and only if there are two of them at most, as far as there
is memory for it. -/
theorem listsDevices_iff (platform : Platform) (grants : Grants) (entries : List Dirent) :
    ListsDevices platform grants entries ↔ (deviceNames platform entries).length ≤ 2 ∧
      grants.cells 3 = true ∧ ∀ i < (deviceNames platform entries).length, grants.copies i = true := by
  by_cases hstart : grants.cells 3 = true
  · constructor
    · rintro ⟨cells, hfind, hcells, -⟩
      rcases ipcFindDevices_cases hstart entries with ⟨list, hfind', hlist⟩ | ⟨n, -, -, -, hfind'⟩
      · obtain rfl : list.result = cells := Option.some.inj (hfind'.symm.trans hfind)
        obtain ⟨htwo, hgranted⟩ := hlist.terminated_iff.mp hcells
        exact ⟨htwo, hstart, hgranted⟩
      · rw [hfind] at hfind'
        cases hfind'
    · rintro ⟨htwo, -, hgranted⟩
      rcases ipcFindDevices_cases hstart entries with ⟨list, hfind, hlist⟩ | ⟨n, hn, hlt, -⟩
      · have hcells := hlist.terminated_iff.mpr ⟨htwo, hgranted⟩
        exact ⟨list.result, hfind, hcells, scan_eq_some_iff.mpr hcells⟩
      · omega
  · refine iff_of_false ?_ fun h => hstart h.2.1
    rintro ⟨cells, hfind, -⟩
    rw [ipcFindDevices, if_neg hstart] at hfind
    cases hfind

/-- Three printers, and memory for everything. -/
theorem not_listsDevices_three : ¬ ∀ platform grants entries, (∀ n, grants.cells n = true) →
    (∀ i, grants.copies i = true) → ListsDevices platform grants entries := by
  intro h
  obtain ⟨cells, hfind, -, hscan⟩ := h .linux ⟨fun _ => true, fun _ => true⟩
    [⟨ascii "ttyUSB0", dtChr, by decide⟩, ⟨ascii "ttyUSB1", dtChr, by decide⟩,
      ⟨ascii "ttyACM0", dtChr, by decide⟩] (fun _ => rfl) fun _ => rfl
  have hcells : ipcFindDevices .linux ⟨fun _ => true, fun _ => true⟩
      (some [⟨ascii "ttyUSB0", dtChr, by decide⟩, ⟨ascii "ttyUSB1", dtChr, by decide⟩,
        ⟨ascii "ttyACM0", dtChr, by decide⟩]) =
      some [.item (ascii "ttyUSB0"), .item (ascii "ttyUSB1"), .item (ascii "ttyACM0"), .unspecified] := by
    decide
  obtain rfl := Option.some.inj (hfind.symm.trans hcells)
  cases hscan

end Print3D
