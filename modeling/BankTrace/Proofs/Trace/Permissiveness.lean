import BankTrace.Proofs.Trace.Exactness
import BankTrace.Proofs.Trace.Legality

/-!
# Runs that are given more

A run can be given more in three ways: further addresses to start from, further permissions, and
settings that ask for more handlers, believe more instructions or check less. Each of them is looked
at in another place of a run, and nowhere is less believed because of it. So what is accepted stays
accepted, what is reached stays reached, and a run that is given more believes at least the same
instructions and sets at least the same bits.
-/

namespace BankTrace

/-- A permission allows all that another one does. -/
structure Permission.Widened (p q : Permission) : Prop where
  /-- What may be read may be read. -/
  readable : p.readable = true → q.readable = true
  /-- What may be written may be written. -/
  writable : p.writable = true → q.writable = true
  /-- What may be executed may be executed. -/
  executable : p.executable = true → q.executable = true

/-- An address space allows at every address all that another one does. -/
def AddressSpace.Widened (space other : AddressSpace) : Prop :=
  ∀ addr, (space.permissionAt addr).Widened (other.permissionAt addr)

/-- Settings ask for all handlers that others ask for, allow all that these allow, and check no more
than these check. -/
structure Settings.Relaxed (s t : Settings) : Prop where
  useNmi : s.useNmi = true → t.useNmi = true
  useReset : s.useReset = true → t.useReset = true
  useIrq : s.useIrq = true → t.useIrq = true
  allowBrk : s.allowBrk = true → t.allowBrk = true
  allowClv : s.allowClv = true → t.allowClv = true
  allowSed : s.allowSed = true → t.allowSed = true
  allowUnofficial : s.allowUnofficial = true → t.allowUnofficial = true
  checkOperandAccess : t.checkOperandAccess = true → s.checkOperandAccess = true
  checkFallthrough : t.checkFallthrough = true → s.checkFallthrough = true

namespace Policy

variable {space other : AddressSpace} {settings relaxed : Settings} {map : MemoryMap}
  {insn : Instruction}

/-- Where some address has a permission, it has it when more is permitted. -/
theorem anyPermits_of_widened {test : Permission → Bool}
    (kept : ∀ addr, test (space.permissionAt addr) = true → test (other.permissionAt addr) = true)
    {addrs : List Int} (some : anyPermits space test addrs = true) :
    anyPermits other test addrs = true := by
  unfold anyPermits at *
  obtain ⟨addr, member, permits⟩ := List.any_eq_true.mp some
  exact List.any_eq_true.mpr ⟨addr, member, kept addr permits⟩

/-- Allowed accesses are allowed when more is permitted. -/
theorem refusedAccess_of_widened (wider : space.Widened other)
    (allowed : refusedAccess space insn = none) : refusedAccess other insn = none := by
  obtain ⟨straight, reads, writes⟩ := refusedAccess_eq_none_iff.mp allowed
  refine refusedAccess_eq_none_iff.mpr ⟨straight, ?_, ?_⟩
  · intro addrs candidates
    exact anyPermits_of_widened (fun addr => (wider addr).readable) (reads addrs candidates)
  · intro addrs candidates
    exact anyPermits_of_widened (fun addr => (wider addr).writable) (writes addrs candidates)

/-- The policy has nothing against an instruction when it had nothing under stricter settings and
with fewer permissions. -/
theorem check_of_relaxed (looser : settings.Relaxed relaxed) (wider : space.Widened other)
    {bank : String} (believed : check settings space map insn bank = none) :
    check relaxed other map insn bank = none := by
  obtain ⟨alone, stays⟩ := check_eq_none_iff.mp believed
  obtain ⟨brk, clv, sed, unofficial, access⟩ := refusedAlone_eq_none_iff.mp alone
  refine check_eq_none_iff.mpr ⟨refusedAlone_eq_none_iff.mpr ⟨?_, ?_, ?_, ?_, ?_⟩, ?_⟩
  · exact fun same => looser.allowBrk (brk same)
  · exact fun same => looser.allowClv (clv same)
  · exact fun same => looser.allowSed (sed same)
  · exact fun same => looser.allowUnofficial (unofficial same)
  · exact fun checks => refusedAccess_of_widened wider (access (looser.checkOperandAccess checks))
  · exact fun checks => stays (looser.checkFallthrough checks)

end Policy

/-- Stretches that may be executed may be executed when more is permitted. -/
theorem AddressSpace.Widened.allExecutable {space other : AddressSpace}
    (wider : space.Widened other) {addr : Int} {count : Nat}
    (all : space.allExecutable addr count = true) :
    other.allExecutable addr count = true := by
  obtain ⟨start, stop, each⟩ := allExecutable_eq_true_iff.mp all
  exact allExecutable_eq_true_iff.mpr
    ⟨start, stop, fun i small => (wider (addr + i)).executable (each i small)⟩

/-- The handlers that are asked for are asked for under looser settings. -/
theorem Settings.Relaxed.enabled {s t : Settings} (looser : s.Relaxed t) {interrupt : Interrupt}
    (member : interrupt ∈ Interrupt.enabled s) : interrupt ∈ Interrupt.enabled t := by
  obtain ⟨known, enabled⟩ := List.mem_filter.mp member
  refine List.mem_filter.mpr ⟨known, ?_⟩
  cases interrupt with
  | nmi => exact looser.useNmi enabled
  | reset => exact looser.useReset enabled
  | irq => exact looser.useIrq enabled

namespace Scene

/-- A scene gives all that another one gives. They differ in the permissions and the settings; both
have the same map, the same loaded bytes and the same trusted addresses. -/
structure Eased (scene other : Scene) : Prop where
  /-- The same banks are mapped. -/
  map_eq : other.map = scene.map
  /-- The same bytes were read from the log. -/
  loaded : ∀ p, other.log.loadedAt p = scene.log.loadedAt p
  /-- The same addresses are trusted. -/
  trusted : other.trusted = scene.trusted
  /-- No less is permitted. -/
  wider : scene.space.Widened other.space
  /-- No less is believed. -/
  looser : scene.settings.Relaxed other.settings

section

variable {scene other : Scene} {addr : Int} {location : Location} {insn : Instruction}

/-- What is accepted is accepted where no less is given. -/
theorem Eased.accepts (eased : scene.Eased other) (accepted : scene.Accepts addr location insn) :
    other.Accepts addr location insn where
  resolved := by
    rw [eased.map_eq]
    exact accepted.resolved
  analyzable := accepted.analyzable
  executable := (eased.wider addr).executable accepted.executable
  notData := by
    rw [eased.loaded]
    exact accepted.notData
  decoded := by
    obtain ⟨address, bytes, executable⟩ := Instruction.decode_eq_ok_iff.mp accepted.decoded
    exact Instruction.decode_eq_ok_iff.mpr ⟨address, bytes, eased.wider.allExecutable executable⟩
  believed := by
    rw [eased.trusted, eased.map_eq]
    exact accepted.believed.imp_right (Policy.check_of_relaxed eased.looser eased.wider)

/-- What is reached is reached from more addresses where no less is given. -/
theorem Eased.reaches (eased : scene.Eased other) {starts others : List Int}
    (more : ∀ addr ∈ starts, addr ∈ others) (reached : scene.Reaches starts addr) :
    other.Reaches others addr := by
  induction reached with
  | start member => exact .start (more _ member)
  | next _ accepted follows ih =>
    refine ih.next (eased.accepts accepted) ?_
    rw [eased.map_eq]
    exact follows

end

end Scene

/-- Stores that were read alike have the same bytes. -/
theorem Cdl.Store.ReadAlike.has {s t : Cdl.Store} (alike : s.ReadAlike t) {p : Cdl.Position}
    (present : s.Has p) : t.Has p := by
  obtain ⟨size, sized, start, stop⟩ := present
  refine ⟨size, ?_, start, stop⟩
  rw [lookup_sizes, ← alike.sizes, ← lookup_sizes]
  exact sized

namespace Analyzer

section

variable {a b : Analyzer} {map : MemoryMap} {entries others loaded : List Int}

/-- A run starts from no fewer addresses under looser settings and with further entries. -/
theorem mem_seeds_of_relaxed (looser : a.settings.Relaxed b.settings)
    (more : ∀ addr ∈ entries, addr ∈ others) {addr : Int} (member : addr ∈ a.seeds map entries) :
    addr ∈ b.seeds map others := by
  rcases List.mem_append.mp member with handled | entered
  · obtain ⟨⟨interrupt, handler⟩, found, rfl⟩ := List.mem_map.mp handled
    obtain ⟨enabled, read⟩ := MemoryMap.mem_handlers.mp found
    have kept := MemoryMap.mem_handlers.mpr ⟨looser.enabled enabled, read⟩
    exact List.mem_append_left _ (List.mem_map_of_mem (f := fun h => (h.2 : Int)) kept)
  · obtain ⟨entry, given, rfl⟩ := List.mem_map.mp entered
    exact List.mem_append_right _ (List.mem_map_of_mem (more entry given))

/-- The scenes of two runs from logs that were read alike. -/
theorem eased_scene (wider : a.space.Widened b.space) (looser : a.settings.Relaxed b.settings)
    {log other : Cdl.Store} (alike : log.ReadAlike other) :
    (a.scene map log loaded).Eased (b.scene map other loaded) where
  map_eq := rfl
  loaded := fun p => (alike.loaded p).symm
  trusted := rfl
  wider := wider
  looser := looser

end

/-- A run without limit that is given more finds more. It has the same banks and a log that was read
alike, with all entries of another run, no fewer permissions and looser settings. Where the mapped
addresses have log bytes of their own, both runs succeed; and in whatever order they take the
waiting addresses, it believes all instructions that the other one believes, and whatever byte the
other one marks as code or as data is marked so behind it. -/
theorem run_of_more {a b : Analyzer} (banks : b.banks = a.banks)
    (wider : a.space.Widened b.space) (looser : a.settings.Relaxed b.settings)
    {entries others : List Int} (more : ∀ addr ∈ entries, addr ∈ others) {x y : Analysis}
    (made : x.store.MadeFor a.banks.declared) (made' : y.store.MadeFor a.banks.declared)
    (alike : x.store.ReadAlike y.store) {snapshot : Snapshot} {map : MemoryMap}
    (valid : MemoryMap.ofSnapshot a.banks snapshot = .ok map) (distinct : map.DistinctPositions) :
    (∀ order workers, 1 ≤ workers → ∃ r,
      (({ a with order } : Analyzer).run x snapshot entries workers none).result = .ok r ∧
      a.Completes x snapshot entries
        (({ a with order } : Analyzer).run x snapshot entries workers none).analysis r) ∧
    (∀ order workers, 1 ≤ workers → ∃ r,
      (({ b with order } : Analyzer).run y snapshot others workers none).result = .ok r ∧
      b.Completes y snapshot others
        (({ b with order } : Analyzer).run y snapshot others workers none).analysis r) ∧
    ∀ x' r y' r', a.Completes x snapshot entries x' r → b.Completes y snapshot others y' r' →
      (∀ insn ∈ r.instructions, insn ∈ r'.instructions) ∧
      ∀ mask ∈ [Cdl.code, Cdl.data], ∀ p, x.store.Has p →
        Cdl.hasAny mask (x'.store.byteAt p) = true →
          Cdl.hasAny mask (x.store.byteAt p) = true ∨
            Cdl.hasAny mask (y'.store.byteAt p) = true := by
  rw [← banks] at made'
  have valid' : MemoryMap.ofSnapshot b.banks snapshot = .ok map := banks ▸ valid
  refine ⟨fun order _ => a.completes_of_run made valid order entries,
    fun order _ => b.completes_of_run made' valid' order others, ?_⟩
  intro x' r y' r' completes completes'
  obtain ⟨loaded, t, ran, complete, visits⟩ := completes.ran made valid
  obtain ⟨loaded', u, ran', complete', visits'⟩ := completes'.ran made' valid'
  -- The loaded code of both logs is the same, as they were read alike.
  have starts := ran.loaded_eq
  rw [MemoryMap.loadedStarts_congr alike] at starts
  obtain rfl : loaded = loaded' := Except.ok.inj (starts.symm.trans ran'.loaded_eq)
  have eased : (a.scene map x.store loaded).Eased (b.scene map y.store loaded) :=
    eased_scene wider looser alike
  have believed : ∀ insn ∈ t.believed, insn ∈ u.believed := by
    intro insn member
    obtain ⟨reached, location, accepted⟩ := (ran.mem_believed_iff distinct complete).mp member
    refine (ran'.mem_believed_iff distinct complete').mpr ⟨?_, location, eased.accepts accepted⟩
    refine eased.reaches ?_ reached
    intro addr start
    rcases List.mem_append.mp start with seed | swept
    · exact List.mem_append_left _ (mem_seeds_of_relaxed looser more seed)
    · exact List.mem_append_right _ swept
  refine ⟨?_, ?_⟩
  · rw [Traversal.instructions_eq_believed visits, Traversal.instructions_eq_believed visits']
    exact believed
  · intro mask kind p present marked
    have present' := alike.has present
    rcases List.mem_cons.mp kind with rfl | kind
    · rw [ran.code_iff present] at marked
      rw [ran'.code_iff present']
      refine marked.imp_right ?_
      rintro ⟨insn, member, covered⟩
      exact .inr ⟨insn, believed insn member, covered⟩
    · obtain rfl := List.mem_singleton.mp kind
      rw [ran.data_iff present] at marked
      rw [ran'.data_iff present']
      refine marked.imp_right ?_
      rintro ⟨interrupt, enabled, read, covered⟩
      exact .inr ⟨interrupt, looser.enabled enabled, read, covered⟩

/-- The single bank under settings that ask for every handler, believe `brk` as well and look at
accesses no more. -/
def eagerSole : Analyzer :=
  { sole with settings := { useNmi := true, allowBrk := true, checkOperandAccess := false,
                            checkFallthrough := false } }

/-- The instruction that a run finds at the first byte of the bank is found there by a run that is
given more. -/
theorem run_of_more_sole : ∃ r',
    (eagerSole.run { store := soleLog } {} [0x8001, 0x8000] 1 none).result = .ok r' ∧
      soleInstruction ∈ r'.instructions := by
  have wider : sole.space.Widened eagerSole.space := fun _ => ⟨id, id, id⟩
  have looser : sole.settings.Relaxed eagerSole.settings := by
    constructor <;> decide
  have more : ∀ addr ∈ ([0x8000] : List Int), addr ∈ ([0x8001, 0x8000] : List Int) :=
    fun _ => List.mem_cons_of_mem _
  have distinct : soleMap.DistinctPositions := MemoryMap.SlicesApart.distinctPositions (by decide)
  obtain ⟨first, second, keeps⟩ := run_of_more (a := sole) (b := eagerSole) rfl wider looser more
    (x := { store := soleLog }) (y := { store := soleLog }) madeFor_sole madeFor_sole
    (.of_reading rfl) ofSnapshot_sole distinct
  obtain ⟨r, _, completes⟩ := first .fifo 1 (Int.le_refl 1)
  obtain ⟨r', answered, completes'⟩ := second .fifo 1 (Int.le_refl 1)
  refine ⟨r', answered, (keeps _ r _ r' completes completes').1 soleInstruction ?_⟩
  obtain ⟨loaded, t, ran, complete, visits⟩ := completes.ran madeFor_sole ofSnapshot_sole
  have unread := Cdl.Store.loadedAt_of_forBanks forBanks_sole
  obtain rfl : loaded = [] :=
    MemoryMap.loadedStarts_eq_nil (fun l _ => unread l.position) ran.loaded_eq
  rw [Traversal.instructions_eq_believed visits]
  exact ran.believed_of_entry (l := soleStart) distinct complete
    List.mem_cons_self accepts_sole

end Analyzer

end BankTrace
