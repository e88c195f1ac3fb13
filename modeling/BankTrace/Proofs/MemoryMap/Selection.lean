import BankTrace.Proofs.MemoryMap.Admission

/-!
# Snapshots that are refused

A snapshot is refused for one of three faults: it selects a name that no bank has, or a bank at a
start that is not its own, or two switchable banks that share an address, which a bank that is
listed twice does with itself. A snapshot without a fault is admitted. Fixed banks may be listed,
and it makes no difference how often.
-/

namespace BankTrace

/-- What is wrong with a snapshot, and the error that tells so. -/
inductive Snapshot.Fault (set : BankSet) (s : Snapshot) : ConfigError → Prop
  /-- A name that no bank has is selected. -/
  | unknown {start : Int} {name : String} (selects : (start, name) ∈ s.selection)
    (nowhere : ∀ b ∈ set.banks, b.name ≠ name) : Fault set s (.unknownBank name)
  /-- A bank is selected at a start that is not its own. -/
  | misplaced {start : Int} {b : LoadedBank} (selects : (start, b.name) ∈ s.selection)
    (declared : b ∈ set.banks) (elsewhere : (b.start : Int) ≠ start) :
    Fault set s (.wrongWindow b.name start)
  /-- Two switchable banks that share an address are listed one behind the other. -/
  | overlapping {b c : LoadedBank}
    (selects : [b.name, c.name].Sublist (s.selection.map Prod.snd))
    (first : b ∈ set.switchable) (second : c ∈ set.switchable)
    (share : b.overlaps c.toBank = true) : Fault set s (.windowOverlap b.name c.name)

/-- A switchable bank that is listed twice is a fault. -/
theorem Snapshot.fault_of_twice {set : BankSet} {s : Snapshot} {b : LoadedBank}
    (switchable : b ∈ set.switchable) (twice : 2 ≤ (s.selection.map Prod.snd).count b.name) :
    s.Fault set (.windowOverlap b.name b.name) :=
  .overlapping (List.replicate_sublist_iff.mpr twice) switchable switchable
    (Bank.overlaps_self b.toBank)

namespace BankSet

/-- The switchable bank of that name. -/
def switchable? (set : BankSet) (name : String) : Option LoadedBank :=
  (set.get? name).filter fun b => !b.fixed

variable {set : BankSet} {name : String} {b : LoadedBank}

/-- A bank is found by its name. -/
theorem get?_eq_some_iff : set.get? name = some b ↔ b ∈ set.banks ∧ b.name = name := by
  constructor
  · intro found
    exact ⟨List.mem_of_find?_eq_some found, by simpa using List.find?_some found⟩
  · rintro ⟨member, rfl⟩
    exact get?_eq member

/-- A switchable bank is found by its name. -/
theorem switchable?_eq_some_iff :
    set.switchable? name = some b ↔ b ∈ set.switchable ∧ b.name = name := by
  unfold switchable?
  rw [Option.filter_eq_some_iff, get?_eq_some_iff, mem_switchable, Bool.not_eq_true',
    and_right_comm]

/-- The bank of a name is the switchable one unless it is fixed. -/
theorem switchable?_of_get? (known : set.get? name = some b) :
    set.switchable? name = if b.fixed then none else some b := by
  unfold switchable?
  rw [known, Option.filter_some]
  cases b.fixed <;> rfl

/-- What names stand for are switchable banks. -/
theorem mem_switchable_of_mem {names : List String} (member : b ∈ names.filterMap set.switchable?) :
    b ∈ set.switchable := by
  obtain ⟨name, _, found⟩ := List.mem_filterMap.mp member
  exact (switchable?_eq_some_iff.mp found).1

/-- The names of the switchable banks that names stand for are among the names, in their order. -/
theorem sublist_names (set : BankSet) (names : List String) :
    ((names.filterMap set.switchable?).map fun b => b.name).Sublist names := by
  induction names with
  | nil => exact .slnil
  | cons name rest ih =>
    rw [List.filterMap_cons]
    cases found : set.switchable? name with
    | none => exact ih.cons name
    | some b =>
      rw [← (switchable?_eq_some_iff.mp found).2]
      exact ih.cons_cons b.name

/-- Two switchable banks come one behind the other where their names do. -/
theorem sublist_filterMap_iff {c : LoadedBank} {names : List String} (first : b ∈ set.switchable)
    (second : c ∈ set.switchable) :
    [b, c].Sublist (names.filterMap set.switchable?) ↔ [b.name, c.name].Sublist names := by
  constructor
  · intro among
    exact (among.map fun b => b.name).trans (set.sublist_names names)
  · intro among
    have banks := among.filterMap set.switchable?
    rw [List.filterMap_cons, switchable?_eq_some_iff.mpr ⟨first, rfl⟩, List.filterMap_cons,
      switchable?_eq_some_iff.mpr ⟨second, rfl⟩] at banks
    exact banks

end BankSet

namespace MemoryMap

/-- The first overlap of a list is that of a bank and a later one. -/
theorem sublist_of_firstOverlap {banks : List LoadedBank} {b c : LoadedBank}
    (found : firstOverlap banks = some (b, c)) :
    [b, c].Sublist banks ∧ b.overlaps c.toBank = true := by
  induction banks with
  | nil => contradiction
  | cons first rest ih =>
    rw [firstOverlap] at found
    cases later : rest.find? fun c => first.overlaps c.toBank with
    | none =>
      rw [later] at found
      obtain ⟨among, share⟩ := ih found
      exact ⟨among.cons first, share⟩
    | some second =>
      rw [later] at found
      obtain ⟨rfl, rfl⟩ := Prod.mk.inj (Option.some.inj found)
      have among := List.singleton_sublist.mpr (List.mem_of_find?_eq_some later)
      have share := List.find?_some (p := fun c : LoadedBank => first.overlaps c.toBank) later
      exact ⟨among.cons_cons first, share⟩

section

variable {set : BankSet} {selection : List (Int × String)}

/-- Where the selection of banks fails, a name is unknown or a bank is misplaced. -/
theorem exists_of_selected_eq_error {e : ConfigError} (failed : selected set selection = .error e) :
    ∃ start name, (start, name) ∈ selection ∧
      (set.get? name = none ∧ e = .unknownBank name ∨
        ∃ b, set.get? name = some b ∧ (b.start : Int) ≠ start ∧ e = .wrongWindow name start) := by
  induction selection with
  | nil => contradiction
  | cons pair rest ih =>
    obtain ⟨start, name⟩ := pair
    rw [selected] at failed
    cases known : set.get? name with
    | none =>
      rw [known] at failed
      exact ⟨start, name, List.mem_cons_self, .inl ⟨known, (Except.error.inj failed).symm⟩⟩
    | some b =>
      rw [known] at failed
      dsimp only at failed
      split at failed
      case isTrue elsewhere =>
        have error := (Except.error.inj failed).symm
        exact ⟨start, name, List.mem_cons_self, .inr ⟨b, known, elsewhere, error⟩⟩
      case isFalse =>
        cases others : selected set rest with
        | ok chosen =>
          rw [others] at failed
          contradiction
        | error e' =>
          rw [others] at failed
          obtain rfl := Except.error.inj failed
          obtain ⟨start', name', member, fault⟩ := ih others
          exact ⟨start', name', List.mem_cons_of_mem _ member, fault⟩

/-- Where the selection of banks succeeds, every name is that of a bank, at its start, and the
switchable ones among these banks are selected. -/
theorem placed_of_selected {chosen : List LoadedBank} (done : selected set selection = .ok chosen) :
    (∀ pair ∈ selection, ∃ b, set.get? pair.2 = some b ∧ (b.start : Int) = pair.1) ∧
      chosen = (selection.map Prod.snd).filterMap set.switchable? := by
  induction selection generalizing chosen with
  | nil =>
    obtain rfl := Except.ok.inj done
    exact ⟨fun _ member => absurd member List.not_mem_nil, rfl⟩
  | cons pair rest ih =>
    obtain ⟨start, name⟩ := pair
    obtain ⟨b, others, known, here, later, rfl⟩ := MemoryMap.selected_cons_eq_ok_iff.mp done
    obtain ⟨placed, rfl⟩ := ih later
    refine ⟨?_, ?_⟩
    · intro pair member
      rcases List.mem_cons.mp member with rfl | behind
      · exact ⟨b, known, here⟩
      · exact placed pair behind
    · rw [List.map_cons, List.filterMap_cons, BankSet.switchable?_of_get? known]
      split <;> rfl

/-- Banks are selected exactly where every name is that of a bank, at its start. -/
theorem selected_eq_ok_iff {chosen : List LoadedBank} :
    selected set selection = .ok chosen ↔
      (∀ pair ∈ selection, ∃ b, set.get? pair.2 = some b ∧ (b.start : Int) = pair.1) ∧
        chosen = (selection.map Prod.snd).filterMap set.switchable? := by
  refine ⟨placed_of_selected, ?_⟩
  rintro ⟨placed, rfl⟩
  cases done : selected set selection with
  | ok chosen =>
    obtain ⟨_, rfl⟩ := placed_of_selected done
    rfl
  | error e =>
    obtain ⟨start, name, member, fault⟩ := exists_of_selected_eq_error done
    obtain ⟨b, known, here⟩ := placed _ member
    rcases fault with ⟨unknown, _⟩ | ⟨c, known', elsewhere, _⟩
    · rw [unknown] at known
      contradiction
    · rw [known', Option.some_inj] at known
      rw [known] at elsewhere
      exact absurd here elsewhere

end

section

variable {set : BankSet} {s : Snapshot}

/-- What is mapped under a snapshot are the fixed banks and the selected ones. -/
theorem exists_selected {map : MemoryMap} (valid : ofSnapshot set s = .ok map) :
    ∃ chosen, selected set s.selection = .ok chosen ∧ map.active = set.fixed ++ chosen := by
  unfold ofSnapshot at valid
  cases done : selected set s.selection with
  | error e =>
    rw [done] at valid
    contradiction
  | ok chosen =>
    rw [done] at valid
    dsimp only at valid
    split at valid
    case h_1 => contradiction
    case h_2 =>
      obtain rfl := Except.ok.inj valid
      exact ⟨chosen, rfl, rfl⟩

/-- Two overlapping banks among the fixed and the selected ones are selected. -/
theorem sublist_of_overlap {b c : LoadedBank} {names : List String}
    (among : [b, c].Sublist (set.fixed ++ names.filterMap set.switchable?))
    (share : b.overlaps c.toBank = true) : [b, c].Sublist (names.filterMap set.switchable?) := by
  -- Neither bank is fixed: fixed banks overlap neither switchable ones nor each other.
  obtain ⟨fixed, others, split, within, within'⟩ := List.sublist_append_iff.mp among
  match fixed, split with
  | [], split =>
    rw [split]
    exact within'
  | [d], split =>
    obtain ⟨rfl, rfl⟩ := List.cons.inj split
    have apart := BankSet.apart_of_fixed (List.singleton_sublist.mp within)
      (BankSet.mem_switchable_of_mem (List.singleton_sublist.mp within'))
    rw [share] at apart
    contradiction
  | d :: d' :: rest, split =>
    obtain ⟨rfl, split'⟩ := List.cons.inj split
    obtain ⟨rfl, none⟩ := List.cons.inj split'
    have apart := List.rel_of_pairwise_cons (set.pairwise_fixed.sublist within) List.mem_cons_self
    rw [share] at apart
    contradiction

/-- A refused snapshot has the fault that the error tells of. -/
theorem fault_of_ofSnapshot {e : ConfigError} (refused : ofSnapshot set s = .error e) :
    s.Fault set e := by
  unfold ofSnapshot at refused
  cases done : selected set s.selection with
  | error e' =>
    rw [done] at refused
    obtain rfl := Except.error.inj refused
    obtain ⟨start, name, selects, ⟨unknown, rfl⟩ | ⟨b, known, elsewhere, rfl⟩⟩ :=
      exists_of_selected_eq_error done
    · apply Snapshot.Fault.unknown selects
      intro b member named
      rw [BankSet.get?_eq_some_iff.mpr ⟨member, named⟩] at unknown
      contradiction
    · obtain ⟨member, rfl⟩ := BankSet.get?_eq_some_iff.mp known
      exact .misplaced selects member elsewhere
  | ok chosen =>
    rw [done] at refused
    dsimp only at refused
    split at refused
    case h_2 => contradiction
    case h_1 b c found =>
      obtain rfl := Except.error.inj refused
      obtain ⟨among, share⟩ := sublist_of_firstOverlap found
      obtain ⟨_, rfl⟩ := selected_eq_ok_iff.mp done
      have selects := sublist_of_overlap among share
      have switchable : ∀ d ∈ [b, c], d ∈ set.switchable :=
        fun d member => BankSet.mem_switchable_of_mem (selects.subset member)
      have first := switchable b List.mem_cons_self
      have second := switchable c (List.mem_cons_of_mem b List.mem_cons_self)
      exact .overlapping ((BankSet.sublist_filterMap_iff first second).mp selects) first second
        share

/-- A snapshot with a fault is refused. -/
theorem exists_error_of_fault {e : ConfigError} (fault : s.Fault set e) :
    ∃ error, ofSnapshot set s = .error error := by
  cases valid : ofSnapshot set s with
  | error error => exact ⟨error, rfl⟩
  | ok map =>
    obtain ⟨chosen, done, active⟩ := exists_selected valid
    obtain ⟨placed, rfl⟩ := selected_eq_ok_iff.mp done
    cases fault with
    | unknown selects nowhere =>
      obtain ⟨b, known, _⟩ := placed _ selects
      obtain ⟨member, named⟩ := BankSet.get?_eq_some_iff.mp known
      exact absurd named (nowhere b member)
    | misplaced selects declared elsewhere =>
      obtain ⟨b, known, here⟩ := placed _ selects
      rw [BankSet.get?_eq declared, Option.some_inj] at known
      rw [known] at elsewhere
      exact absurd here elsewhere
    | overlapping selects first second share =>
      have among := (BankSet.sublist_filterMap_iff first second).mpr selects
      have apart := map.disjoint
      rw [active] at apart
      have apart' := List.rel_of_pairwise_cons
        ((List.pairwise_append.mp apart).2.1.sublist among) List.mem_cons_self
      rw [share] at apart'
      contradiction

end

end MemoryMap

end BankTrace
