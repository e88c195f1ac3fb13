import BankTrace.Proofs.MemoryMap.Requests

/-!
# Snapshots that are admitted

Whether banks can be mapped together is asked twice: of all declared banks, when they are checked as
a layout, and of the fixed and the selected banks, when a snapshot is mapped. A layout answers the
second question for every snapshot that selects at most one switchable bank: the fixed banks share
no address with any other bank. The snapshots of a set are of this kind, and every bank is mapped in
one of them, with all its bytes.
-/

namespace BankTrace

/-- A snapshot selects a name, whatever the window is. -/
def Snapshot.Selects (s : Snapshot) (name : String) : Prop := name ∈ s.selection.map Prod.snd

instance (s : Snapshot) (name : String) : Decidable (s.Selects name) :=
  inferInstanceAs (Decidable (_ ∈ _))

/-- The snapshot of one bank selects this bank. -/
theorem Snapshot.selects_single {b : Bank} {version : Int} {name : String} :
    (single b version).Selects name ↔ name = b.name :=
  List.mem_singleton

/-- Being declared together is mutual. -/
theorem Layout.compatible_comm (a b : Bank) : compatible a b = compatible b a := by
  unfold compatible
  rw [Bool.or_comm, Bank.overlaps_comm]

/-- A fixed bank shares no address with a bank that it is declared with. -/
theorem Layout.apart_of_compatible {a b : Bank} (together : compatible a b = true)
    (fixed : a.fixed = true) : a.overlaps b = false := by
  unfold compatible at together
  rw [fixed] at together
  simpa using together

namespace BankSet

section

variable {set : BankSet} {b : LoadedBank}

/-- The banks of a set are declared together. -/
theorem pairwise_compatible (set : BankSet) :
    set.banks.Pairwise fun a b => Layout.compatible a.toBank b.toBank = true :=
  List.pairwise_map.mp (Layout.check_eq_ok_iff.mp set.layout).2

/-- The fixed banks are those of the set that are declared so. -/
theorem mem_fixed : b ∈ set.fixed ↔ b ∈ set.banks ∧ b.fixed = true := List.mem_filter

/-- The switchable banks are the others. -/
theorem mem_switchable : b ∈ set.switchable ↔ b ∈ set.banks ∧ b.fixed = false := by
  unfold switchable
  rw [List.mem_filter, Bool.not_eq_true']

/-- The fixed banks share no address. -/
theorem pairwise_fixed (set : BankSet) :
    set.fixed.Pairwise fun a b => a.overlaps b.toBank = false := by
  have among : set.fixed.Sublist set.banks := List.filter_sublist
  have together := set.pairwise_compatible.sublist among
  exact together.imp_of_mem fun member _ each =>
    Layout.apart_of_compatible each (mem_fixed.mp member).2

/-- A fixed bank shares no address with a switchable one. -/
theorem apart_of_fixed {a : LoadedBank} (fixed : a ∈ set.fixed) (switchable : b ∈ set.switchable) :
    a.overlaps b.toBank = false := by
  obtain ⟨member, first⟩ := mem_fixed.mp fixed
  obtain ⟨member', second⟩ := mem_switchable.mp switchable
  have differ : a ≠ b := by
    rintro rfl
    rw [first] at second
    contradiction
  have : Std.Symm fun a b : LoadedBank => Layout.compatible a.toBank b.toBank = true :=
    ⟨fun a b each => by rw [Layout.compatible_comm]; exact each⟩
  exact Layout.apart_of_compatible (set.pairwise_compatible.forall member member' differ) first

/-- A layout becomes a bank set, whose banks take the images that have their names. -/
theorem ofImages_eq {banks : List Bank} (layout : Layout.check banks = .ok ())
    (image : String → Option (Array UInt8)) :
    ∃ set, ofImages banks image =
        .ok (set, banks.flatMap fun b => (LoadedBank.attach b (image b.name)).2) ∧
      set.banks = banks.map fun b => (LoadedBank.attach b (image b.name)).1 := by
  unfold ofImages
  split
  case h_1 e broken =>
    rw [layout] at broken
    contradiction
  case h_2 =>
    dsimp only
    rw [List.flatMap_map]
    exact ⟨_, rfl, List.map_map⟩

/-- A layout becomes a bank set with any images. -/
theorem exists_ofImages {banks : List Bank} (layout : Layout.check banks = .ok ())
    (image : String → Option (Array UInt8)) :
    ∃ set events, ofImages banks image = .ok (set, events) ∧ set.declared = banks := by
  obtain ⟨set, made, held⟩ := ofImages_eq layout image
  refine ⟨set, _, made, ?_⟩
  unfold declared
  rw [held, List.map_map]
  exact List.map_id'' (fun b => LoadedBank.attach_toBank b _) banks

/-- A set has a snapshot. -/
theorem snapshots_ne_nil (set : BankSet) : set.snapshots ≠ [] := by
  unfold snapshots
  cases set.switchable with
  | nil => exact List.cons_ne_nil _ _
  | cons b rest => exact List.cons_ne_nil _ _

/-- A switchable bank is selected by one of the snapshots, and by no other one. -/
theorem countP_snapshots (switchable : b ∈ set.switchable) :
    set.snapshots.countP (fun s => s.Selects b.name) = 1 := by
  have listed : set.snapshots = set.switchable.map fun c => .single c.toBank 0 := by
    unfold snapshots
    cases banks : set.switchable with
    | nil =>
      rw [banks] at switchable
      contradiction
    | cons c rest => rfl
  have names : (set.switchable.map fun c => c.name).Nodup :=
    set.nodup_names.sublist (List.filter_sublist.map _)
  have here : b.name ∈ set.switchable.map fun c => c.name :=
    List.mem_map_of_mem (f := fun c : LoadedBank => c.name) switchable
  have once := List.count_eq_one_of_mem names here
  rw [List.count, List.countP_map] at once
  rw [listed, List.countP_map, ← once]
  apply List.countP_congr
  intro c _
  rw [Function.comp_apply, Function.comp_apply, decide_eq_true_iff, Snapshot.selects_single,
    beq_iff_eq, eq_comm]

/-- Every bank is fixed or selected by one of the snapshots. -/
theorem exists_snapshot (member : b ∈ set.banks) :
    ∃ s ∈ set.snapshots, b.fixed = true ∨ s.Selects b.name := by
  by_cases fixed : b.fixed = true
  · obtain ⟨s, listed⟩ := List.exists_mem_of_ne_nil _ set.snapshots_ne_nil
    exact ⟨s, listed, .inl fixed⟩
  · have switchable := mem_switchable.mpr ⟨member, Bool.not_eq_true _ ▸ fixed⟩
    have some : 0 < set.snapshots.countP fun s => s.Selects b.name := by
      rw [countP_snapshots switchable]
      exact Nat.one_pos
    obtain ⟨s, listed, selects⟩ := List.countP_pos_iff.mp some
    exact ⟨s, listed, .inr (of_decide_eq_true selects)⟩

/-- The snapshots of a set select one switchable bank each, or nothing when there is none. -/
theorem mem_snapshots {s : Snapshot} :
    s ∈ set.snapshots ↔
      (set.switchable = [] ∧ s = {}) ∨ ∃ b ∈ set.switchable, s = .single b.toBank 0 := by
  unfold snapshots
  cases set.switchable with
  | nil => simp
  | cons b rest => simp [eq_comm]

end

end BankSet

namespace MemoryMap

section

variable {set : BankSet} {snapshot : Snapshot} {chosen : List LoadedBank}

/-- A snapshot is admitted when the banks that it selects share no address with each other and with
the fixed banks, and then these are what is mapped. -/
theorem exists_ofSnapshot (done : selected set snapshot.selection = .ok chosen)
    (apart : (set.fixed ++ chosen).Pairwise fun a b => a.overlaps b.toBank = false) :
    ∃ map, ofSnapshot set snapshot = .ok map ∧ map.active = set.fixed ++ chosen := by
  have none := firstOverlap_eq_none_iff.mpr apart
  unfold ofSnapshot
  rw [done]
  dsimp only
  split
  case h_1 pair found =>
    rw [none] at found
    contradiction
  case h_2 => exact ⟨_, rfl, rfl⟩

/-- The snapshot that selects nothing is admitted, and the fixed banks are mapped. -/
theorem ofSnapshot_bare (set : BankSet) (version : Int) :
    ∃ map, ofSnapshot set { version } = .ok map ∧ map.active = set.fixed := by
  have apart := set.pairwise_fixed
  rw [← List.append_nil set.fixed] at apart
  have nothing : selected set ({ version } : Snapshot).selection = .ok [] := rfl
  obtain ⟨map, valid, active⟩ := exists_ofSnapshot nothing apart
  rw [List.append_nil] at active
  exact ⟨map, valid, active⟩

/-- A snapshot that selects one switchable bank is admitted, and this bank is mapped beside the
fixed ones. -/
theorem ofSnapshot_single {b : LoadedBank} (switchable : b ∈ set.switchable) (version : Int) :
    ∃ map, ofSnapshot set (.single b.toBank version) = .ok map ∧ map.active = set.fixed ++ [b] := by
  obtain ⟨member, unfixed⟩ := BankSet.mem_switchable.mp switchable
  have done : selected set (Snapshot.single b.toBank version).selection = .ok [b] := by
    refine selected_cons_eq_ok_iff.mpr ⟨b, [], BankSet.get?_eq member, rfl, rfl, ?_⟩
    rw [unfixed, if_neg Bool.false_ne_true]
  refine exists_ofSnapshot done (List.pairwise_append.mpr ⟨set.pairwise_fixed, ?_, ?_⟩)
  · exact List.pairwise_singleton _ _
  · intro a fixed c here
    rw [List.mem_singleton.mp here]
    exact BankSet.apart_of_fixed fixed switchable

/-- A mapped bank is mapped with all its bytes. -/
theorem resolve_in_full (map : MemoryMap) {b : LoadedBank} (mapped : b ∈ map.active)
    (offset : Fin b.size) : map.resolve (b.start + offset) = some ⟨b, offset⟩ :=
  resolve_address (l := ⟨b, offset⟩) mapped

/-- Every snapshot of a set is admitted, and the banks that are mapped are the fixed ones and the
one that it selects. -/
theorem ofSnapshot_of_mem_snapshots (member : snapshot ∈ set.snapshots) :
    ∃ map, ofSnapshot set snapshot = .ok map ∧
      ∀ b, b ∈ map.active ↔ b ∈ set.banks ∧ (b.fixed = true ∨ snapshot.Selects b.name) := by
  rcases BankSet.mem_snapshots.mp member with ⟨_, rfl⟩ | ⟨c, switchable, rfl⟩
  · obtain ⟨map, valid, active⟩ := ofSnapshot_bare set 0
    refine ⟨map, valid, ?_⟩
    intro b
    have unselected : ¬({} : Snapshot).Selects b.name := List.not_mem_nil
    rw [active, BankSet.mem_fixed, or_iff_left unselected]
  · obtain ⟨map, valid, active⟩ := ofSnapshot_single switchable 0
    refine ⟨map, valid, ?_⟩
    intro b
    rw [active, List.mem_append, List.mem_singleton, BankSet.mem_fixed, Snapshot.selects_single,
      and_or_left]
    refine or_congr_right ?_
    obtain ⟨declared, _⟩ := BankSet.mem_switchable.mp switchable
    constructor
    · rintro rfl
      exact ⟨declared, rfl⟩
    · rintro ⟨known, named⟩
      exact List.inj_on_of_nodup_map set.nodup_names known declared named

end

end MemoryMap

end BankTrace
