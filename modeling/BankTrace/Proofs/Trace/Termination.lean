import Mathlib.Algebra.Order.BigOperators.Group.List
import Mathlib.Algebra.Order.Group.Nat
import BankTrace.Proofs.MemoryMap.Requests
import BankTrace.Proofs.Trace.Accounting
import BankTrace.Proofs.Trace.Exactness

/-!
# Runs come to an end

A run without limit ends, whatever is in the banks and in the loaded log. A visit that inspects a
location claims its position for good, so no sequence of visits goes on forever, in whatever order
the waiting addresses are taken; and a sweep of loaded code moves on with every opcode. The number
of steps is linear in what the run starts from and in what it accepts, and what it accepts is
bounded by the addresses that can hold an instruction at all.
-/

namespace BankTrace

/-! ## Sweeps -/

namespace LoadedBank

/-- A round of a sweep that ends at `stop`: from an offset in front of it the sweep moves on behind
the instruction there. -/
def SweepRound (b : LoadedBank) (stop next offset : Nat) : Prop :=
  offset < stop ∧ next = offset + Opcode.length (b.byte offset)

/-- Every round of a sweep comes closer to the end. -/
theorem wellFounded_sweepRound (b : LoadedBank) (stop : Nat) : WellFounded (b.SweepRound stop) := by
  have closer : Subrelation (b.SweepRound stop) (measure fun offset => stop - offset).rel := by
    rintro next offset ⟨inside, rfl⟩
    have length := Opcode.length_pos (b.byte offset)
    change stop - (offset + Opcode.length (b.byte offset)) < stop - offset
    omega
  exact closer.wf (measure _).wf

/-- A sweep lists where a round begins and goes on as one from where it ends. -/
theorem sweep_of_round {b : LoadedBank} {stop next offset : Nat}
    (round : b.SweepRound stop next offset) :
    b.sweep offset stop = ((b.start + offset : Nat) : Int) :: b.sweep next stop := by
  obtain ⟨inside, rfl⟩ := round
  rw [sweep, if_pos inside]

/-- A sweep that can make no round lists nothing more. -/
theorem sweep_of_stuck {b : LoadedBank} {stop offset : Nat}
    (stuck : ∀ next, ¬ b.SweepRound stop next offset) : b.sweep offset stop = [] := by
  have outside : ¬ offset < stop := fun inside => stuck _ ⟨inside, rfl⟩
  rw [sweep, if_neg outside]

end LoadedBank

/-! ## The addresses that can be visited to some effect -/

/-- All addresses. -/
def addresses : List Int := (List.range addressCount).map fun (n : Nat) => (n : Int)

/-- The list of all addresses has every address. -/
theorem mem_addresses {addr : Int} : addr ∈ addresses ↔ IsAddress addr := by
  unfold addresses IsAddress addressCount
  rw [List.mem_map]
  constructor
  · rintro ⟨n, inside, rfl⟩
    rw [List.mem_range] at inside
    omega
  · rintro ⟨start, stop⟩
    refine ⟨addr.toNat, ?_, Int.toNat_of_nonneg start⟩
    rw [List.mem_range]
    omega

/-- The addresses that lie in mapped banks with an image. -/
def MemoryMap.readableAddresses (map : MemoryMap) : List Int :=
  addresses.filter fun addr => (map.resolve addr).any fun l => l.bank.isAnalyzable

/-- The addresses that may be executed and lie in mapped banks with an image. -/
def Analyzer.executableAddresses (a : Analyzer) (map : MemoryMap) : List Int :=
  map.readableAddresses.filter fun addr => (a.space.permissionAt addr).executable

/-- An address is readable where it resolves to a location in a bank with an image. -/
theorem MemoryMap.mem_readableAddresses {map : MemoryMap} {addr : Int} {l : Location}
    (inside : IsAddress addr) (found : map.resolve addr = some l)
    (analyzable : l.bank.isAnalyzable = true) : addr ∈ map.readableAddresses := by
  refine List.mem_filter.mpr ⟨mem_addresses.mpr inside, ?_⟩
  rw [found]
  exact analyzable

/-- An instruction can be accepted at an executable address only. -/
theorem Analyzer.mem_executableAddresses {a : Analyzer} {scene : Scene} {addr : Int}
    {l : Location} {insn : Instruction} (accepted : scene.Accepts addr l insn)
    (space : scene.space = a.space) : addr ∈ a.executableAddresses scene.map := by
  have executable := accepted.executable
  rw [space] at executable
  have inside := AddressSpace.bounds_of_executable executable
  have readable := MemoryMap.mem_readableAddresses inside accepted.resolved accepted.analyzable
  exact List.mem_filter.mpr ⟨readable, executable⟩

/-- There are no more starts in the loaded code than readable addresses. -/
theorem MemoryMap.length_loadedStarts_le {map : MemoryMap} {store : Cdl.Store} {starts : List Int}
    (done : map.loadedStarts store = .ok starts) :
    starts.length ≤ map.readableAddresses.length := by
  have distinct : starts.Nodup := (pairwise_loadedStarts done).imp fun before => Int.ne_of_lt before
  have among : starts.Subperm map.readableAddresses := by
    refine distinct.subperm fun addr member => ?_
    obtain ⟨l, _, analyzable, rfl, _⟩ := (mem_loadedStarts_iff done).mp member
    obtain ⟨m, found, readable, _⟩ := mem_loadedStarts done member
    exact mem_readableAddresses l.isAddress found readable
  exact among.length_le

/-! ## Traversals -/

namespace Traversal

variable {scene : Scene} {starts : List Int} {t : Traversal}

/-- No sequence of visits goes on forever: every visit uses up one of the steps that any traversal
from the starts can make at most. -/
theorem Consistent.acc (consistent : Consistent scene starts t) :
    Acc (fun u t => Step scene t u) t := by
  induction left : starts.length + 2 * addressCount - t.visits.length using
    Nat.strong_induction_on generalizing t with
  | h left ih =>
    constructor
    rintro _ ⟨taken⟩
    rename_i addr rest
    have later := consistent.visit taken
    have bound := later.length_le
    have one : (t.visit scene addr rest).visits.length = t.visits.length + 1 := rfl
    exact ih _ (by omega) later rfl

end Traversal

/-- A run that left nothing waiting has made at most two steps for every accepted instruction, apart
from those at its starts. -/
theorem Result.Balances.steps_le {r : Result} {map : MemoryMap} {limit : Option Int} {claimed : Nat}
    (balances : r.Balances map limit claimed) (finished : r.limitReached = false) :
    r.steps ≤ r.seeds.length + r.loadedSeeds.length + 2 * r.accepted := by
  have two : (r.instructions.map fun insn => (insn.successors map).2.length).sum ≤
      r.accepted * 2 := by
    unfold Result.accepted
    rw [← List.length_map (fun insn : Instruction => (insn.successors map).2.length)]
    apply List.sum_le_card_nsmul
    intro n member
    obtain ⟨insn, _, rfl⟩ := List.mem_map.mp member
    exact insn.length_successors_le map
  have total := balances.complete finished
  omega

namespace Analyzer

/-- The steps of a run without limit are bounded by its starts and its accepted instructions, and
these by the addresses that may be executed in banks with an image. -/
structure Bounded (a : Analyzer) (map : MemoryMap) (r : Result) : Prop where
  /-- Nothing is left waiting. -/
  finished : r.limitReached = false
  /-- The steps are linear in the starts and the accepted instructions. -/
  steps : r.steps ≤ r.seeds.length + r.loadedSeeds.length + 2 * r.accepted
  /-- There is one accepted instruction for an address at most. -/
  accepted : r.accepted ≤ (a.executableAddresses map).length
  /-- There is one start in the loaded code for an address at most. -/
  loaded : r.loadedSeeds.length ≤ map.readableAddresses.length

/-- A completion is bounded, in whatever order it took the waiting addresses. -/
theorem Completes.bounded {a : Analyzer} {before after : Analysis} {snapshot : Snapshot}
    {map : MemoryMap} {entries : List Int} {r : Result}
    (completes : a.Completes before snapshot entries after r)
    (made : before.store.MadeFor a.banks.declared)
    (valid : MemoryMap.ofSnapshot a.banks snapshot = .ok map) : a.Bounded map r := by
  obtain ⟨start, t, ⟨begun, waiting, arranged, led⟩, complete, _, answer⟩ := completes
  obtain ⟨_, loaded, found, prepared⟩ := a.prepare_of_valid made valid entries
  rw [prepared] at begun led
  obtain rfl := Except.ok.inj begun
  have shape := Except.ok.inj answer
  have visits : r.visits = t.visits.reverse := by rw [← shape]
  have unfinished : r.limitReached = t.isUnfinished := by rw [← shape]
  have starts : r.seeds ++ r.loadedSeeds = a.seeds map entries ++ loaded := by rw [← shape]
  have begins : waiting.toList.Perm (r.seeds ++ r.loadedSeeds) := starts ▸ arranged
  have consistent := (Traversal.consistent_start _ begins).leads led
  have counted : Traversal.Counted { waiting } := Registry.size_empty
  have ended : (none : Option Int) = none → t.IsComplete := fun _ => complete
  have balances := consistent.balances (counted.leads led) visits unfinished ended
  have finished := balances.unlimited rfl
  constructor
  case finished => exact finished
  case steps => exact balances.steps_le finished
  case accepted =>
    have distinct := balances.once.of_append_left
    have among : (r.instructions.map Instruction.address).Subperm (a.executableAddresses map) := by
      refine distinct.subperm fun addr member => ?_
      obtain ⟨insn, believed, rfl⟩ := List.mem_map.mp member
      rw [Traversal.instructions_eq_believed visits] at believed
      obtain ⟨location, accepted⟩ := consistent.exists_accepts believed
      have executable := mem_executableAddresses accepted rfl
      exact executable
    have fewer := among.length_le
    rw [List.length_map] at fewer
    exact fewer
  case loaded =>
    have swept : r.loadedSeeds = loaded := by rw [← shape]
    rw [swept]
    exact MemoryMap.length_loadedStarts_le found

/-- A run without limit comes to an end in both orders and is bounded, and so is every other
completion: no order of the visits lets a traversal go on forever, and a sweep of loaded code, which
goes from round to round, does not either. -/
theorem run_terminates (a : Analyzer) (before : Analysis) (snapshot : Snapshot) (map : MemoryMap)
    (made : before.store.MadeFor a.banks.declared)
    (valid : MemoryMap.ofSnapshot a.banks snapshot = .ok map) (entries : List Int) :
    (∀ order workers, 1 ≤ workers → ∃ r,
      (({ a with order } : Analyzer).run before snapshot entries workers none).result = .ok r ∧
        a.Bounded map r) ∧
      (∀ after r, a.Completes before snapshot entries after r → a.Bounded map r) ∧
      (∀ start t, a.CanReach before snapshot entries start t → Acc (fun u t => Traversal.Step
        (a.scene start.map (a.prepare before snapshot entries).analysis.store start.loaded) t u)
          t) ∧
      ∀ (b : LoadedBank) (stop : Nat), WellFounded (b.SweepRound stop) ∧ ∀ offset,
        (∀ next, b.SweepRound stop next offset →
          b.sweep offset stop = ((b.start + offset : Nat) : Int) :: b.sweep next stop) ∧
        ((∀ next, ¬ b.SweepRound stop next offset) → b.sweep offset stop = []) := by
  refine ⟨?_, ?_, ?_, ?_⟩
  · intro order workers staffed
    obtain ⟨r, answered, completes⟩ := a.completes_of_run made valid order entries staffed
    exact ⟨r, answered, completes.bounded made valid⟩
  · intro after r completes
    exact completes.bounded made valid
  · rintro start t ⟨_, waiting, arranged, led⟩
    exact ((Traversal.consistent_start _ arranged).leads led).acc
  · intro b stop
    refine ⟨b.wellFounded_sweepRound stop, fun offset => ⟨?_, LoadedBank.sweep_of_stuck⟩⟩
    exact fun next => LoadedBank.sweep_of_round

/-- A run from the first byte of a bank ends within the bound. -/
theorem run_terminates_sole : ∃ r,
    (sole.run { store := soleLog } {} [0x8000] 1 none).result = .ok r ∧
      r.limitReached = false ∧
        r.steps ≤ r.seeds.length + r.loadedSeeds.length + 2 * r.accepted := by
  obtain ⟨runs, _⟩ := run_terminates sole { store := soleLog } {} soleMap madeFor_sole
    ofSnapshot_sole [0x8000]
  obtain ⟨r, answered, bounded⟩ := runs .fifo 1 (Int.le_refl 1)
  exact ⟨r, answered, bounded.finished, bounded.steps⟩

end Analyzer

end BankTrace
