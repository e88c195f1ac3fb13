import BankTrace.Proofs.Trace.Accounting
import BankTrace.Proofs.Trace.History

/-!
# What requests record

A request records instructions that are fixed by the log as it was last read: it would record the
same ones if it were the only request. So the journal behind a history has the entries of each
request and nothing else, whatever the order of the requests was, and it has none of them twice.
The log does not depend on that order either.
-/

namespace BankTrace

namespace Journal

/-- Chapters have names of their own, and no chapter has two instructions at one address. -/
structure Orderly (chapters : List (Snapshot × List Instruction)) : Prop where
  /-- No name is used twice. -/
  names : (chapters.map Prod.fst).Nodup
  /-- No address is used twice in a chapter. -/
  addresses : ∀ chapter ∈ chapters, (chapter.2.map Instruction.address).Nodup

/-- An extension adds no other name than that of the snapshot. -/
theorem mem_names_extend {snapshot name : Snapshot} {insns : List Instruction}
    {chapters : List (Snapshot × List Instruction)}
    (member : name ∈ (extend snapshot insns chapters).map Prod.fst) :
    name ∈ chapters.map Prod.fst ∨ name = snapshot := by
  induction chapters with
  | nil =>
    rw [extend] at member
    exact .inr (List.mem_singleton.mp member)
  | cons chapter rest ih =>
    obtain ⟨first, known⟩ := chapter
    rw [extend] at member
    split at member
    · exact .inl member
    · rcases List.mem_cons.mp member with rfl | later
      · exact .inl List.mem_cons_self
      · exact (ih later).imp_left (List.mem_cons_of_mem first)

/-- Instructions are added to a chapter without using an address twice. -/
theorem nodup_append_unseen {known insns : List Instruction}
    (old : (known.map Instruction.address).Nodup) (new : (insns.map Instruction.address).Nodup) :
    ((known ++ unseen known insns).map Instruction.address).Nodup := by
  have fresh : (unseen known insns).Sublist insns := List.filter_sublist
  rw [List.map_append, List.nodup_append]
  refine ⟨old, new.sublist (fresh.map _), ?_⟩
  intro addr member other member' same
  obtain ⟨insn, here, rfl⟩ := List.mem_map.mp member
  obtain ⟨insn', there, rfl⟩ := List.mem_map.mp member'
  exact (mem_unseen.mp there).2 insn here same

/-- An extension keeps chapters orderly. -/
theorem Orderly.extend {chapters : List (Snapshot × List Instruction)} {insns : List Instruction}
    (orderly : Orderly chapters) (snapshot : Snapshot)
    (once : (insns.map Instruction.address).Nodup) : Orderly (extend snapshot insns chapters) := by
  induction chapters with
  | nil =>
    constructor
    · exact List.nodup_singleton _
    · intro chapter member
      rw [List.mem_singleton.mp member]
      exact once
  | cons chapter rest ih =>
    obtain ⟨name, known⟩ := chapter
    obtain ⟨fresh, distinct⟩ := List.nodup_cons.mp orderly.names
    have first : (known.map Instruction.address).Nodup := orderly.addresses _ List.mem_cons_self
    have others : ∀ chapter ∈ rest, (chapter.2.map Instruction.address).Nodup :=
      fun chapter later => orderly.addresses chapter (List.mem_cons_of_mem _ later)
    rw [Journal.extend]
    by_cases here : name = snapshot
    · rw [if_pos here]
      constructor
      · exact orderly.names
      · intro chapter member
        rcases List.mem_cons.mp member with rfl | later
        · exact nodup_append_unseen first once
        · exact others chapter later
    · rw [if_neg here]
      obtain ⟨names, addresses⟩ := ih ⟨distinct, others⟩
      constructor
      · refine List.nodup_cons.mpr ⟨?_, names⟩
        intro member
        rcases mem_names_extend member with later | same
        · exact fresh later
        · exact here same
      · intro chapter member
        rcases List.mem_cons.mp member with rfl | later
        · exact first
        · exact addresses chapter later

/-- No entry is twice in an orderly journal. -/
theorem Orderly.nodup_entries {j : Journal} (orderly : Orderly j.chapters) : j.entries.Nodup := by
  unfold entries
  rw [List.nodup_flatMap]
  constructor
  · rintro ⟨name, insns⟩ member
    have once : insns.Nodup := (orderly.addresses _ member).of_map
    exact once.map fun _ _ same => (Prod.mk.inj same).2
  · refine (List.pairwise_map.mp orderly.names).imp ?_
    rintro ⟨name, insns⟩ ⟨other, insns'⟩ differ ⟨s, insn⟩ member member'
    obtain ⟨_, _, same⟩ := List.mem_map.mp member
    obtain ⟨_, _, same'⟩ := List.mem_map.mp member'
    exact differ ((Prod.mk.inj same).1.trans (Prod.mk.inj same').1.symm)

end Journal

/-- No instruction is believed twice. -/
theorem Traversal.Consistent.nodup_believed {scene : Scene} {starts : List Int} {t : Traversal}
    (consistent : Traversal.Consistent scene starts t) :
    (t.believed.map Instruction.address).Nodup := by
  have read : ((t.outcomes.filterMap Outcome.instruction?).map Instruction.address).Nodup := by
    unfold Traversal.outcomes
    rw [List.filterMap_map, List.filterMap_reverse, List.map_reverse, List.nodup_reverse]
    exact consistent.nodup_read
  have split := (Outcome.instructions_perm t.outcomes).map Instruction.address
  have once := split.nodup_iff.mpr read
  rw [List.map_append] at once
  exact once.of_append_left

namespace Analyzer

section

variable {a : Analyzer} {log : Cdl.Store} {served requests : List Request} {now : Analysis}
  {s : Snapshot} {insn : Instruction}

/-- Runs of one schedule, of analyses whose logs were read alike, come to the same traversal. -/
theorem Ran.traversal_eq {x y after after' : Analysis} (alike : x.store.reading = y.store.reading)
    {snapshot : Snapshot} {map : MemoryMap} {entries loaded loaded' : List Int} {order : Order}
    {schedule : Schedule} {limit : Option Int}
    (ran : a.Ran x snapshot map entries loaded (Traversal.run (a.scene map x.store loaded) order
      schedule (a.seeds map entries ++ loaded) limit) after)
    (ran' : a.Ran y snapshot map entries loaded' (Traversal.run (a.scene map y.store loaded') order
      schedule (a.seeds map entries ++ loaded') limit) after') :
    Traversal.run (a.scene map x.store loaded) order schedule (a.seeds map entries ++ loaded)
        limit =
      Traversal.run (a.scene map y.store loaded') order schedule (a.seeds map entries ++ loaded')
        limit := by
  have swept := MemoryMap.loadedStarts_congr (.of_reading alike) map
  rw [ran.loaded_eq, ran'.loaded_eq] at swept
  rw [Except.ok.inj swept]
  exact Traversal.run_with_log (a.scene map y.store loaded') (Cdl.Store.loadedAt_congr alike) ..

/-- A request records nothing, or it records instructions that are justified, in every analysis
whose log was read like the given one. -/
theorem exists_recorded (a : Analyzer) (made : log.MadeFor a.banks.declared) (r : Request) :
    (∀ x : Analysis, x.store.reading = log.reading → (a.serve x r).journal = x.journal) ∨
      ∃ insns : List Instruction, (insns.map Instruction.address).Nodup ∧
        (∀ insn ∈ insns, ∃ map l, a.Justifies log r.snapshot.unversioned insn map l) ∧
        ∀ x : Analysis, x.store.reading = log.reading →
          (a.serve x r).journal = x.journal.record r.snapshot insns := by
  by_cases admitted : 1 ≤ r.workers ∧ ∃ map, MemoryMap.ofSnapshot a.banks r.snapshot = .ok map
  · right
    obtain ⟨staffed, map, valid⟩ := admitted
    have begun : ({ store := log } : Analysis).store.MadeFor a.banks.declared := made
    obtain ⟨loaded, ran⟩ := a.ran_of_run begun valid r.order r.schedule r.entries staffed r.limit
    refine ⟨_, ran.consistent.nodup_believed, ?_, ?_⟩
    · intro insn believed
      obtain ⟨l, accepted⟩ := ran.consistent.exists_accepts believed
      exact ⟨map, l, ran.justifies valid rfl accepted⟩
    · intro x reading
      obtain ⟨loaded', ran'⟩ := a.ran_of_run (made.of_reading reading) valid r.order r.schedule
        r.entries staffed r.limit
      rw [← ran'.traversal_eq reading ran]
      exact ran'.journal_eq
  · left
    intro x reading
    rcases a.serve_cases (made.of_reading reading) r with ⟨_, left⟩ | ⟨_, left⟩ |
      ⟨staffed, map, _, _, valid, _⟩
    · rw [left]
    · rw [left]
    · exact absurd ⟨staffed, map, valid⟩ admitted

/-- A request records an entry when it is the only request. -/
def Records (a : Analyzer) (log : Cdl.Store) (r : Request) (s : Snapshot) (insn : Instruction) :
    Prop :=
  (s, insn) ∈ (a.serve { store := log } r).journal.entries

/-- Behind a request the journal has the entries that it had and those that the request records. -/
theorem Tracks.mem_serve_iff (tracks : a.Tracks log served now)
    (made : log.MadeFor a.banks.declared) (r : Request) :
    (s, insn) ∈ (a.serve now r).journal.entries ↔
      (s, insn) ∈ now.journal.entries ∨ a.Records log r s insn := by
  unfold Records
  rcases a.exists_recorded made r with kept | ⟨insns, _, justified, recorded⟩
  · rw [kept now tracks.reading, kept { store := log } rfl]
    refine (or_iff_left ?_).symm
    intro absurdity
    contradiction
  · have behind := (tracks.serve made r).justified
    rw [recorded now tracks.reading] at behind ⊢
    rw [recorded { store := log } rfl, Journal.mem_record_empty]
    constructor
    · exact Journal.mem_or_of_mem_record
    · rintro (old | ⟨rfl, new⟩)
      · exact Journal.mem_record_of_mem r.snapshot insns old
      · exact mem_record_of_justified behind (justified insn new) new

/-- Behind requests the journal has the entries that it had and those that each of them records. -/
theorem Tracks.mem_serveAll_iff (tracks : a.Tracks log served now)
    (made : log.MadeFor a.banks.declared) (requests : List Request) :
    (s, insn) ∈ (a.serveAll now requests).journal.entries ↔
      (s, insn) ∈ now.journal.entries ∨ ∃ r ∈ requests, a.Records log r s insn := by
  induction requests generalizing served now with
  | nil => exact ⟨.inl, fun known => known.elim id (by rintro ⟨_, absurdity, _⟩; contradiction)⟩
  | cons r rest ih =>
    have later := ih (tracks.serve made r)
    rw [tracks.mem_serve_iff made r, or_assoc] at later
    rw [List.exists_mem_cons_iff]
    exact later

/-- The journal behind requests has the entries that each of them records, and no others. -/
theorem mem_entries_serveAll_iff (made : log.MadeFor a.banks.declared) :
    (s, insn) ∈ (a.serveAll { store := log } requests).journal.entries ↔
      ∃ r ∈ requests, a.Records log r s insn := by
  refine ((a.tracks_start log).mem_serveAll_iff made requests).trans (or_iff_right ?_)
  intro absurdity
  contradiction

/-- Behind the same requests in another order the journal has the same entries. -/
theorem mem_entries_of_perm (made : log.MadeFor a.banks.declared) {others : List Request}
    (same : requests.Perm others) :
    (s, insn) ∈ (a.serveAll { store := log } requests).journal.entries ↔
      (s, insn) ∈ (a.serveAll { store := log } others).journal.entries := by
  rw [mem_entries_serveAll_iff made, mem_entries_serveAll_iff made]
  simp only [same.mem_iff]

/-- The same requests in another order leave the same log. -/
theorem byteAt_of_perm (made : log.MadeFor a.banks.declared) {others : List Request}
    (same : requests.Perm others) {p : Cdl.Position} (present : log.Has p) :
    (a.serveAll { store := log } requests).store.byteAt p =
      (a.serveAll { store := log } others).store.byteAt p := by
  have tracks := (a.tracks_start log).serveAll made requests
  have tracks' := (a.tracks_start log).serveAll made others
  rw [List.nil_append] at tracks tracks'
  apply Cdl.eq_of_hasAny_eq
  · have encodes : a.Encodes (a.serveAll { store := log } requests).journal p ↔
        a.Encodes (a.serveAll { store := log } others).journal p := by
      unfold Encodes
      simp only [mem_entries_of_perm made same]
    rw [Bool.eq_iff_iff, tracks.code p present, tracks'.code p present, encodes]
  · rw [Bool.eq_iff_iff, tracks.data p present, tracks'.data p present]
    simp only [same.mem_iff]
  · rw [tracks.rest p present, tracks'.rest p present]

/-- A request keeps the journal orderly. -/
theorem Tracks.orderly_serve (tracks : a.Tracks log served now)
    (made : log.MadeFor a.banks.declared) (orderly : Journal.Orderly now.journal.chapters)
    (r : Request) : Journal.Orderly (a.serve now r).journal.chapters := by
  rcases a.exists_recorded made r with kept | ⟨insns, once, _, recorded⟩
  · rw [kept now tracks.reading]
    exact orderly
  · rw [recorded now tracks.reading]
    exact orderly.extend r.snapshot.unversioned once

/-- Requests keep the journal orderly. -/
theorem Tracks.orderly_serveAll (tracks : a.Tracks log served now)
    (made : log.MadeFor a.banks.declared) (orderly : Journal.Orderly now.journal.chapters)
    (requests : List Request) : Journal.Orderly (a.serveAll now requests).journal.chapters := by
  induction requests generalizing served now with
  | nil => exact orderly
  | cons r rest ih => exact ih (tracks.serve made r) (tracks.orderly_serve made orderly r)

/-- The journal behind requests has no entry twice. -/
theorem nodup_entries_serveAll (made : log.MadeFor a.banks.declared) (requests : List Request) :
    (a.serveAll { store := log } requests).journal.entries.Nodup := by
  have blank : Journal.Orderly ({ store := log } : Analysis).journal.chapters := by
    refine ⟨List.nodup_nil, ?_⟩
    intro chapter absurdity
    contradiction
  exact ((a.tracks_start log).orderly_serveAll made blank requests).nodup_entries

end

end Analyzer

end BankTrace
