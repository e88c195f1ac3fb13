import BankTrace.Proofs.MemoryMap.Selection
import BankTrace.Proofs.Trace.LoadedCode

/-!
# Memory maps that are kept

A memory map is built once for a selection and then kept. It is found again by the selection in
ascending order, so it serves for the selection in any other order as well: what is mapped does not
depend on the order. A refused snapshot leaves nothing that is kept, and it is refused again for the
same reason. So nobody can tell a kept map from a new one, whatever has been asked for before.
-/

namespace BankTrace

namespace MemoryMap

/-- The order in which a snapshot lists its banks does not count. -/
theorem ofSnapshot_perm {set : BankSet} {s t : Snapshot} {map : MemoryMap}
    (same : s.selection.Perm t.selection) (valid : ofSnapshot set s = .ok map) :
    ∃ other, ofSnapshot set t = .ok other ∧ other.active.Perm map.active := by
  obtain ⟨chosen, done, active⟩ := exists_selected valid
  obtain ⟨placed, rfl⟩ := selected_eq_ok_iff.mp done
  have placed' : ∀ pair ∈ t.selection, ∃ b, set.get? pair.2 = some b ∧ (b.start : Int) = pair.1 :=
    fun pair member => placed pair (same.mem_iff.mpr member)
  have done' := selected_eq_ok_iff.mpr ⟨placed', rfl⟩
  have chosen := ((same.map Prod.snd).filterMap set.switchable?).append_left set.fixed
  have apart := map.disjoint
  rw [active] at apart
  have apart' := chosen.pairwise apart fun {b c} each => by
    rw [Bank.overlaps_comm]
    exact each
  obtain ⟨other, valid', active'⟩ := exists_ofSnapshot done' apart'
  refine ⟨other, valid', ?_⟩
  rw [active, active']
  exact chosen.symm

section

variable {map other : MemoryMap} (same : other.active.Perm map.active)

include same

/-- An address resolves to the same location whatever the order of the mapped banks. -/
theorem resolve_of_perm (addr : Int) : other.resolve addr = map.resolve addr := by
  apply Option.ext
  intro l
  rw [resolve_eq_some_iff, resolve_eq_some_iff, same.mem_iff]

/-- The mapped banks ascend to the same list whatever their order. -/
theorem activeBanks_of_perm : other.activeBanks = map.activeBanks := by
  have ascending : other.activeBanks.Perm map.activeBanks :=
    (List.mergeSort_perm ..).trans (same.trans (List.mergeSort_perm ..).symm)
  refine ascending.eq_of_pairwise ?_ other.pairwise_activeBanks map.pairwise_activeBanks
  intro b c _ _ first second
  have nonempty := b.size_pos
  have nonempty' := c.size_pos
  unfold Bank.endAddress at first second
  omega

end

end MemoryMap

/-- Memory maps that have been built, by the selection in ascending order. -/
structure MapCache where
  maps : List (List (Int × String) × MemoryMap) := []

namespace MapCache

/-- One bank of a selection comes in front of another one: its start is lower, or its name at the
same start. -/
def precedes (a b : Int × String) : Bool := a.1 < b.1 || a.1 = b.1 && a.2 ≤ b.2

/-- The selection of a snapshot in ascending order. -/
def key (s : Snapshot) : List (Int × String) := s.selection.mergeSort precedes

/-- The memory map under a snapshot: the one that is kept for the selection, or a new one, which is
then kept. Where the snapshot is refused nothing is kept. -/
def lookup (cache : MapCache) (set : BankSet) (s : Snapshot) :
    MapCache × Except ConfigError MemoryMap :=
  match cache.maps.lookup (key s) with
  | some map => (cache, .ok map)
  | none =>
    match MemoryMap.ofSnapshot set s with
    | .error e => (cache, .error e)
    | .ok map => (⟨(key s, map) :: cache.maps⟩, .ok map)

/-- What is kept when memory maps have been looked up under one snapshot after the other. -/
def lookupAll (cache : MapCache) (set : BankSet) (asked : List Snapshot) : MapCache :=
  asked.foldl (fun cache s => (cache.lookup set s).1) cache

/-- Every map that is kept is that of a snapshot with the selection. -/
def Sound (cache : MapCache) (set : BankSet) : Prop :=
  ∀ k map, cache.maps.lookup k = some map →
    ∃ s, key s = k ∧ MemoryMap.ofSnapshot set s = .ok map

/-- Snapshots with one key select the same banks. -/
theorem perm_of_key_eq {s t : Snapshot} (same : key s = key t) :
    s.selection.Perm t.selection := by
  have sorted := List.mergeSort_perm s.selection precedes
  have sorted' := List.mergeSort_perm t.selection precedes
  unfold key at same
  rw [same] at sorted
  exact sorted.symm.trans sorted'

/-- A map that is kept is found, and nothing more is kept. -/
theorem lookup_of_kept {cache : MapCache} {s : Snapshot} {map : MemoryMap}
    (kept : cache.maps.lookup (key s) = some map) (set : BankSet) :
    cache.lookup set s = (cache, .ok map) := by
  unfold lookup
  rw [kept]

/-- Nothing is kept at the beginning. -/
theorem sound_start (set : BankSet) : Sound {} set := by
  intro k map kept
  contradiction

section

variable {cache : MapCache} {set : BankSet} (sound : cache.Sound set) {s : Snapshot}

include sound

/-- A refused snapshot is refused for the same reason whatever is kept, and nothing more is kept. -/
theorem Sound.lookup_of_error {e : ConfigError} (refused : MemoryMap.ofSnapshot set s = .error e) :
    cache.lookup set s = (cache, .error e) := by
  unfold lookup
  cases kept : cache.maps.lookup (key s) with
  | none =>
    dsimp only
    rw [refused]
  | some map =>
    obtain ⟨t, same, valid⟩ := sound _ _ kept
    obtain ⟨other, valid', _⟩ := MemoryMap.ofSnapshot_perm (perm_of_key_eq same) valid
    rw [refused] at valid'
    contradiction

/-- Under an admitted snapshot a map is found with the banks that are mapped, and it is kept. -/
theorem Sound.lookup_of_ok {map : MemoryMap} (valid : MemoryMap.ofSnapshot set s = .ok map) :
    ∃ found, (cache.lookup set s).2 = .ok found ∧ found.active.Perm map.active ∧
      (cache.lookup set s).1.maps.lookup (key s) = some found := by
  unfold MapCache.lookup
  cases kept : cache.maps.lookup (key s) with
  | none =>
    dsimp only
    rw [valid]
    exact ⟨map, rfl, .refl _, List.lookup_cons_self⟩
  | some found =>
    obtain ⟨t, same, valid'⟩ := sound _ _ kept
    obtain ⟨other, valid'', banks⟩ := MemoryMap.ofSnapshot_perm (perm_of_key_eq same) valid'
    obtain rfl := Except.ok.inj (valid.symm.trans valid'')
    exact ⟨found, rfl, banks.symm, kept⟩

/-- What is kept stays sound. -/
theorem Sound.lookup (s : Snapshot) : (cache.lookup set s).1.Sound set := by
  unfold MapCache.lookup
  cases cache.maps.lookup (key s) with
  | some map => exact sound
  | none =>
    cases valid : MemoryMap.ofSnapshot set s with
    | error e => exact sound
    | ok map =>
      intro k found kept
      dsimp only at kept
      rw [List.lookup_cons] at kept
      split at kept
      case h_1 here =>
        obtain rfl := Option.some.inj kept
        exact ⟨s, (eq_of_beq here).symm, valid⟩
      case h_2 => exact sound k found kept

/-- What is kept stays sound whatever is looked up. -/
theorem Sound.lookupAll (asked : List Snapshot) : (cache.lookupAll set asked).Sound set := by
  induction asked generalizing cache with
  | nil => exact sound
  | cons s rest ih => exact ih (sound.lookup s)

end

/-- Whatever has been looked up before, a refused snapshot is refused for its own reason and leaves
nothing, and under an admitted one every address resolves as in a new map, and the same banks are
mapped. -/
theorem lookup_after (set : BankSet) (asked : List Snapshot) (s : Snapshot) :
    let cache := lookupAll {} set asked
    (∀ e, MemoryMap.ofSnapshot set s = .error e → cache.lookup set s = (cache, .error e)) ∧
      ∀ map, MemoryMap.ofSnapshot set s = .ok map →
        ∃ found, (cache.lookup set s).2 = .ok found ∧
          (∀ addr, found.resolve addr = map.resolve addr) ∧
          found.activeBanks = map.activeBanks := by
  have sound := (sound_start set).lookupAll asked
  refine ⟨fun e => sound.lookup_of_error, ?_⟩
  intro map valid
  obtain ⟨found, answer, same, _⟩ := sound.lookup_of_ok valid
  exact ⟨found, answer, MemoryMap.resolve_of_perm same, MemoryMap.activeBanks_of_perm same⟩

end MapCache

end BankTrace
