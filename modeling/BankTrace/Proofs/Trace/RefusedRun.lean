import BankTrace.Proofs.Cdl.Account
import BankTrace.Proofs.Trace.Additions
import BankTrace.Proofs.Trace.History
import BankTrace.Proofs.Trace.KeptMaps

/-!
# Refused runs

A run is refused when it has no worker or when its snapshot has a fault, and for no other reason. It
is refused before anything is marked, so at most the claims of earlier runs are lost. As every run
with a worker begins with giving up the claims, no later run can tell that a run was refused,
whatever is done to the analysis and its log in between.
-/

namespace BankTrace

/-- Something that is done to an analysis. -/
inductive Action where
  /-- A run is requested. -/
  | run (request : Request)
  /-- The seeds of a run are asked for. -/
  | seed (snapshot : Snapshot) (entries : List Int)
  /-- What the journal refers to is marked. -/
  | references
  /-- Something is asked of the log. -/
  | log (request : Cdl.Request)

/-- Two analyses have found the same; they may differ in their claims. -/
structure Analysis.Alike (x y : Analysis) : Prop where
  /-- The log files are the same, with their bytes, their dirty bytes and what was last read. -/
  files : x.store.files = y.store.files
  /-- The same is recorded. -/
  journal : x.journal = y.journal

/-- What is asked of a log does not depend on the claims, except for the claims. -/
theorem Cdl.Request.files_after {s t : Cdl.Store} (same : s.files = t.files)
    (request : Cdl.Request) : (request.after s).files = (request.after t).files := by
  obtain ⟨files, claims⟩ := s
  obtain ⟨others, claims'⟩ := t
  dsimp only at same
  subst same
  cases request with
  | load disk => rfl
  | flush disk => rfl
  | claim p => rfl
  | resetClaims => rfl
  | mark path offset count kind =>
    have checked : Cdl.Store.checkRange ⟨files, claims⟩ path offset count =
        Cdl.Store.checkRange ⟨files, claims'⟩ path offset count := rfl
    unfold after Cdl.Store.markRange
    dsimp only
    rw [checked]
    cases Cdl.Store.checkRange ⟨files, claims'⟩ path offset count with
    | error e => rfl
    | ok f => rfl

/-- Marks leave the same files whatever is claimed. -/
theorem Cdl.Store.files_markAll {s t : Cdl.Store} (same : s.files = t.files)
    (marks : List Cdl.Mark) : (s.markAll marks).files = (t.markAll marks).files := by
  obtain ⟨files, claims⟩ := s
  dsimp only at same
  subst same
  rw [t.markAll_with_claims claims marks]

namespace Analyzer

/-- The answer to a request. -/
def answer (a : Analyzer) (before : Analysis) (r : Request) : Answer Result :=
  ({ a with order := r.order, schedule := r.schedule } : Analyzer).run before r.snapshot r.entries
    r.workers r.limit

/-- The answer to a request when memory maps are kept, and those that are kept behind it. -/
def answerKeeping (a : Analyzer) (kept : MapCache) (before : Analysis) (r : Request) :
    MapCache × Answer Result :=
  ({ a with order := r.order, schedule := r.schedule } : Analyzer).runKeeping kept before r.snapshot
    r.entries r.workers r.limit

/-- Without a worker nothing is done. -/
theorem answer_of_idle (a : Analyzer) (before : Analysis) {r : Request} (idle : r.workers < 1) :
    a.answer before r = ⟨before, [], .error (.workers r.workers)⟩ := by
  exact run_of_idle _ before idle ..

/-- Under a snapshot that is refused the claims are given up, and nothing else is done. -/
theorem answer_of_refused (a : Analyzer) (before : Analysis) {r : Request}
    (staffed : 1 ≤ r.workers) {c : ConfigError}
    (refused : MemoryMap.ofSnapshot a.banks r.snapshot = .error c) :
    a.answer before r =
      ⟨{ before with store := before.store.resetClaims }, [], .error (.config c)⟩ := by
  exact ({ a with order := r.order, schedule := r.schedule } : Analyzer).run_of_refused before
    staffed refused ..

/-- Under a snapshot that is admitted a run succeeds. -/
theorem exists_answer (a : Analyzer) {before : Analysis} {r : Request} {map : MemoryMap}
    (made : before.store.MadeFor a.banks.declared) (staffed : 1 ≤ r.workers)
    (valid : MemoryMap.ofSnapshot a.banks r.snapshot = .ok map) :
    ∃ result, (a.answer before r).result = .ok result := by
  obtain ⟨_, _, result, _, answered, _⟩ :=
    ({ a with order := r.order, schedule := r.schedule } : Analyzer).exists_ran made valid
      r.entries staffed r.limit
  exact ⟨result, answered⟩

/-- What an action leaves, whether it succeeds or not. -/
def act (a : Analyzer) (before : Analysis) : Action → Analysis
  | .run r => (a.answer before r).analysis
  | .seed snapshot entries => (a.seed before snapshot entries).analysis
  | .references => (a.markReferences before).analysis
  | .log request => { before with store := request.after before.store }

/-- What actions leave that are done one after the other. -/
def actAll (a : Analyzer) (before : Analysis) (actions : List Action) : Analysis :=
  actions.foldl a.act before

/-- A log stays made for the banks. -/
theorem madeFor_act (a : Analyzer) {before : Analysis}
    (made : before.store.MadeFor a.banks.declared) (action : Action) :
    (a.act before action).store.MadeFor a.banks.declared := by
  have marked : ∀ {s : Cdl.Store}, before.store.IsMarked s → s.MadeFor a.banks.declared := by
    rintro _ ⟨marks, claims, rfl⟩
    exact madeFor_markAll made marks
  cases action with
  | run r => exact marked (addsTo_run ..).marked
  | seed snapshot entries => exact marked (addsTo_seed ..).marked
  | references => exact marked (addsTo_markReferences ..).marked
  | log request => exact made.of_sizes (Cdl.Account.sizes_next (.start before.store) request)

/-- A log stays made for the banks whatever is done. -/
theorem madeFor_actAll (a : Analyzer) {before : Analysis}
    (made : before.store.MadeFor a.banks.declared) (actions : List Action) :
    (a.actAll before actions).store.MadeFor a.banks.declared := by
  induction actions generalizing before with
  | nil => exact made
  | cons action rest ih => exact ih (a.madeFor_act made action)

section

variable {a : Analyzer} {x y : Analysis} (alike : x.Alike y)

include alike

/-- A run is prepared alike whatever is claimed. -/
theorem prepare_alike (snapshot : Snapshot) (entries : List Int) :
    a.prepare x snapshot entries = a.prepare y snapshot entries := by
  have reset : x.store.resetClaims = y.store.resetClaims := by
    unfold Cdl.Store.resetClaims
    rw [alike.files]
  unfold prepare
  rw [reset, alike.journal]

/-- A run with a worker is the same whatever is claimed. -/
theorem answer_alike {r : Request} (staffed : 1 ≤ r.workers) : a.answer x r = a.answer y r := by
  unfold answer
  rw [run_of_staffed _ x staffed, run_of_staffed _ y staffed, prepare_alike alike]

/-- Every action leaves the same whatever is claimed. -/
theorem act_alike (action : Action) : (a.act x action).Alike (a.act y action) := by
  cases action with
  | run r =>
    unfold act
    dsimp only
    by_cases idle : r.workers < 1
    · rw [a.answer_of_idle x idle, a.answer_of_idle y idle]
      exact alike
    · rw [answer_alike alike (by omega)]
      exact ⟨rfl, rfl⟩
  | seed snapshot entries =>
    refine ⟨?_, ?_⟩
    · unfold act seed
      dsimp only
      split
      · exact alike.files
      · cases MemoryMap.ofSnapshot a.banks snapshot with
        | error e => exact alike.files
        | ok map =>
          obtain ⟨marks, events, result, seeded⟩ := a.exists_seedIn x.store map entries
          have reading : x.store.reading = y.store.reading := by
            unfold Cdl.Store.reading
            rw [alike.files]
          dsimp only
          rw [seeded _ (.of_reading rfl), seeded _ (.of_reading reading)]
          exact Cdl.Store.files_markAll alike.files marks
    · unfold act
      dsimp only
      rw [journal_seed, journal_seed, alike.journal]
  | references =>
    refine ⟨?_, alike.journal⟩
    unfold act
    dsimp only
    rw [store_markReferences, store_markReferences, alike.journal]
    exact Cdl.Store.files_markAll alike.files _
  | log request => exact ⟨request.files_after alike.files, alike.journal⟩

/-- Whatever is done, it leaves the same whatever is claimed. -/
theorem actAll_alike (actions : List Action) : (a.actAll x actions).Alike (a.actAll y actions) := by
  induction actions generalizing x y with
  | nil => exact alike
  | cons action rest ih => exact ih (act_alike alike action)

end

/-- A refused run has done no harm: nothing is lost but claims, and no run with a worker can tell
later that there was a refused one. -/
structure Unharmed (a : Analyzer) (before after : Analysis) : Prop where
  /-- The same has been found. -/
  alike : after.Alike before
  /-- The claims are what they were, or they have been given up. -/
  claims : after.store.claims = before.store.claims ∨ after.store.claims = .empty
  /-- Whatever is done next, a later run is the same. -/
  later : ∀ (actions : List Action) (r : Request), 1 ≤ r.workers →
    a.answer (a.actAll after actions) r = a.answer (a.actAll before actions) r

/-- How a request for a run is answered, and what a refusal leaves. -/
structure Verdict (a : Analyzer) (before : Analysis) (r : Request) : Prop where
  /-- It is refused for its workers exactly where it has none. -/
  workers : (a.answer before r).result = .error (.workers r.workers) ↔ r.workers < 1
  /-- With a worker it is refused for its snapshot exactly where the snapshot has a fault. -/
  config : 1 ≤ r.workers →
    ((∃ c, (a.answer before r).result = .error (.config c)) ↔ ∃ c, r.snapshot.Fault a.banks c)
  /-- A switchable bank that is listed twice is such a fault. -/
  twice : ∀ b ∈ a.banks.switchable, 2 ≤ (r.snapshot.selection.map Prod.snd).count b.name →
    r.snapshot.Fault a.banks (.windowOverlap b.name b.name)
  /-- It is refused for nothing else, and the error tells of a fault that the snapshot has. -/
  errors : ∀ e, (a.answer before r).result = .error e →
    e = .workers r.workers ∨ ∃ c, e = .config c ∧ r.snapshot.Fault a.banks c
  /-- A refusal does no harm. -/
  unharmed : ∀ e, (a.answer before r).result = .error e →
    a.Unharmed before (a.answer before r).analysis
  /-- It is answered alike whichever memory maps are kept. -/
  keeping : ∀ kept : MapCache, kept.Sound a.banks →
    (a.answerKeeping kept before r).2 = a.answer before r ∧
      (a.answerKeeping kept before r).1.Sound a.banks
  /-- A refusal leaves no memory map. -/
  maps : ∀ kept : MapCache, kept.Sound a.banks → ∀ e, (a.answer before r).result = .error e →
    (a.answerKeeping kept before r).1 = kept

/-- Analyses that have found the same are unharmed by each other. -/
theorem unharmed_of_alike {a : Analyzer} {before after : Analysis} (alike : after.Alike before)
    (claims : after.store.claims = before.store.claims ∨ after.store.claims = .empty) :
    a.Unharmed before after where
  alike := alike
  claims := claims
  later := fun actions _ staffed => answer_alike (actAll_alike alike actions) staffed

section

variable {a : Analyzer} {before : Analysis} {r : Request}

/-- A request is answered alike whichever memory maps are kept. -/
theorem answerKeeping_eq {kept : MapCache} (sound : kept.Sound a.banks) :
    (a.answerKeeping kept before r).2 = a.answer before r ∧
      (a.answerKeeping kept before r).1.Sound a.banks ∧
      ((r.workers < 1 ∨ ∃ c, MemoryMap.ofSnapshot a.banks r.snapshot = .error c) →
        (a.answerKeeping kept before r).1 = kept) :=
  ({ a with order := r.order, schedule := r.schedule } : Analyzer).runKeeping_eq sound before
    r.entries r.workers r.limit

/-- The verdict on a request without a worker. -/
theorem verdict_of_idle (idle : r.workers < 1) : a.Verdict before r := by
  have answer := a.answer_of_idle before idle
  constructor
  case workers =>
    rw [answer]
    exact iff_of_true rfl idle
  case config =>
    intro staffed
    omega
  case twice => exact fun _ => Snapshot.fault_of_twice
  case errors =>
    intro e given
    rw [answer] at given
    exact .inl (Except.error.inj given).symm
  case unharmed =>
    intro e given
    rw [answer]
    exact unharmed_of_alike ⟨rfl, rfl⟩ (.inl rfl)
  case keeping => exact fun _ sound => (answerKeeping_eq sound).imp_right And.left
  case maps => exact fun _ sound _ _ => (answerKeeping_eq sound).2.2 (.inl idle)

/-- The verdict on a request whose snapshot is refused. -/
theorem verdict_of_refused (staffed : 1 ≤ r.workers) {c : ConfigError}
    (refused : MemoryMap.ofSnapshot a.banks r.snapshot = .error c) : a.Verdict before r := by
  have answer := a.answer_of_refused before staffed refused
  have fault := MemoryMap.fault_of_ofSnapshot refused
  constructor
  case workers =>
    rw [answer]
    exact iff_of_false (by simp) (by omega)
  case config =>
    intro _
    rw [answer]
    exact iff_of_true ⟨c, rfl⟩ ⟨c, fault⟩
  case twice => exact fun _ => Snapshot.fault_of_twice
  case errors =>
    intro e given
    rw [answer] at given
    exact .inr ⟨c, (Except.error.inj given).symm, fault⟩
  case unharmed =>
    intro e given
    rw [answer]
    exact unharmed_of_alike ⟨rfl, rfl⟩ (.inr rfl)
  case keeping => exact fun _ sound => (answerKeeping_eq sound).imp_right And.left
  case maps => exact fun _ sound _ _ => (answerKeeping_eq sound).2.2 (.inr ⟨c, refused⟩)

/-- The verdict on a request that is granted. -/
theorem verdict_of_valid (made : before.store.MadeFor a.banks.declared) (staffed : 1 ≤ r.workers)
    {map : MemoryMap} (valid : MemoryMap.ofSnapshot a.banks r.snapshot = .ok map) :
    a.Verdict before r := by
  obtain ⟨result, answered⟩ := a.exists_answer made staffed valid
  have granted : ∀ e, (a.answer before r).result ≠ .error e := by
    intro e given
    rw [answered] at given
    contradiction
  constructor
  case workers => exact iff_of_false (granted _) (by omega)
  case config =>
    intro _
    refine iff_of_false (fun ⟨c, given⟩ => granted _ given) ?_
    rintro ⟨c, fault⟩
    obtain ⟨c', refused⟩ := MemoryMap.exists_error_of_fault fault
    rw [valid] at refused
    contradiction
  case twice => exact fun _ => Snapshot.fault_of_twice
  case errors => exact fun e given => absurd given (granted e)
  case unharmed => exact fun e given => absurd given (granted e)
  case keeping => exact fun _ sound => (answerKeeping_eq sound).imp_right And.left
  case maps => exact fun _ _ e given => absurd given (granted e)

end

/-- A run is refused exactly for a lack of workers or for a fault of its snapshot, and a refused run
does no harm, whatever has been done before: the log files and the journal stay, and every later run
answers and leaves what it would without the refused one. -/
theorem run_refused_harmlessly (a : Analyzer) (log : Cdl.Store)
    (made : log.MadeFor a.banks.declared) (history : List Action) (r : Request) :
    a.Verdict (a.actAll { store := log } history) r := by
  have made' : (a.actAll { store := log } history).store.MadeFor a.banks.declared :=
    a.madeFor_actAll made history
  by_cases idle : r.workers < 1
  · exact verdict_of_idle idle
  · cases valid : MemoryMap.ofSnapshot a.banks r.snapshot with
    | error c => exact verdict_of_refused (by omega) valid
    | ok map => exact verdict_of_valid made' (by omega) valid

/-- A request for a run that maps a bank that there is not. -/
def strangeRequest : Request :=
  ⟨.fifo, { selection := [(0xC000, "Q")] }, [0x8000], 1, none, .inOrder⟩

/-- The request is refused, and it leaves the journal as it was. -/
theorem run_refused_harmlessly_sole : ∃ c,
    (sole.answer (sole.actAll { store := soleLog } [.run soleRequest]) strangeRequest).result =
        .error (.config c) ∧
      (sole.answer (sole.actAll { store := soleLog } [.run soleRequest])
        strangeRequest).analysis.journal =
          (sole.actAll { store := soleLog } [.run soleRequest]).journal := by
  have verdict := run_refused_harmlessly sole soleLog madeFor_sole [.run soleRequest] strangeRequest
  have fault : strangeRequest.snapshot.Fault sole.banks (.unknownBank "Q") :=
    .unknown List.mem_cons_self (by decide)
  obtain ⟨c, refused⟩ := (verdict.config (Int.le_refl 1)).mpr ⟨_, fault⟩
  exact ⟨c, refused, (verdict.unharmed _ refused).alike.journal⟩

end Analyzer

end BankTrace
