import Mathlib.Algebra.GroupWithZero.Nat
import Mathlib.Data.List.Induction
import Mathlib.Data.List.Nodup
import BankTrace.Proofs.Report.Coverage
import BankTrace.Proofs.Trace.Contest
import BankTrace.Report.Statistics
import BankTrace.Report.Summary

/-!
# Reasons add up

The reasons of the refused instructions are counted one after the other over all results. The counts
are kept in the order in which the reasons first occur; the summary shows them in this order, and
the statistics the most frequent ones first. Both show the same counts, and these add up to the
number of refused instructions of all results.
-/

namespace BankTrace

namespace Refusal

/-- The first two letters of the text of a reason. -/
def initials (reason : Refusal) : List Char := reason.text.toList.take 2

/-- The first two letters tell the reasons apart. -/
theorem initials_injective : Function.Injective initials := by
  intro a b
  cases a
  all_goals
    cases b
    all_goals decide

/-- Different reasons have different texts. -/
theorem text_injective : Function.Injective text := by
  intro a b same
  exact initials_injective (congrArg (fun s => s.toList.take 2) same)

/-- Every text has two letters. -/
theorem two_le_length_text (reason : Refusal) : 2 ≤ reason.text.toList.length := by
  cases reason
  all_goals decide

end Refusal

namespace Result

/-- The reasons that were given in results, one for every refused instruction. -/
def given (results : List Result) : List Refusal :=
  results.flatMap fun r => r.refusals.map Prod.snd

/-- The counts of the reasons of a list, each where it first occurs. -/
def tally (reasons : List Refusal) : List (Refusal × Nat) :=
  reasons.eraseDups.map fun r => (r, reasons.count r)

/-- A reason that follows others is a new one only if it is none of them. -/
theorem eraseDups_concat (reasons : List Refusal) (r : Refusal) :
    (reasons ++ [r]).eraseDups = reasons.eraseDups ++ if r ∈ reasons then [] else [r] := by
  rw [List.eraseDups_append]
  by_cases known : r ∈ reasons
  · simp [List.removeAll, known]
  · simp only [List.removeAll, known, if_false]
    simp [known, List.eraseDups_cons]

/-- The reasons of a list are kept in the order of their first occurrences. -/
theorem pairwise_eraseDups (reasons : List Refusal) :
    reasons.eraseDups.Pairwise fun x y => reasons.idxOf x < reasons.idxOf y := by
  -- From the end: a longer list moves no first occurrence, and only its last reason can be new.
  induction reasons using List.reverseRecOn with
  | nil => exact List.Pairwise.nil
  | append_singleton front r ih =>
    have kept : ∀ x ∈ front.eraseDups, (front ++ [r]).idxOf x = front.idxOf x := by
      intro x member
      rw [List.idxOf_append, if_pos (List.mem_eraseDups.mp member)]
    have before : front.eraseDups.Pairwise fun x y =>
        (front ++ [r]).idxOf x < (front ++ [r]).idxOf y := by
      apply ih.imp_of_mem
      intro x y here there order
      rw [kept x here, kept y there]
      exact order
    rw [eraseDups_concat]
    by_cases known : r ∈ front
    · rw [if_pos known, List.append_nil]
      exact before
    · rw [if_neg known, List.pairwise_append]
      refine ⟨before, List.pairwise_singleton _ _, ?_⟩
      intro x here y there
      rw [List.mem_singleton.mp there, kept x here, List.idxOf_append, if_neg known]
      have inside := List.idxOf_lt_length_of_mem (List.mem_eraseDups.mp here)
      omega

/-- Every reason of a list is kept once. -/
theorem nodup_eraseDups (reasons : List Refusal) : reasons.eraseDups.Nodup := by
  apply (pairwise_eraseDups reasons).imp
  intro x y order same
  rw [same] at order
  exact Nat.lt_irrefl _ order

/-- Counting a reason once more changes its own count, which is put behind the others if there was
none. -/
theorem addReason_map {keys : List Refusal} (distinct : keys.Nodup) (count : Refusal → Nat)
    (r : Refusal) : addReason r (keys.map fun k => (k, count k)) =
      if r ∈ keys then keys.map fun k => (k, if k = r then count k + 1 else count k)
      else (keys.map fun k => (k, count k)) ++ [(r, 1)] := by
  induction keys with
  | nil => rfl
  | cons k rest ih =>
    have apart := List.nodup_cons.mp distinct
    simp only [List.map_cons, addReason]
    by_cases same : k = r
    · have others : ∀ k' ∈ rest, k' ≠ r := by
        intro k' member equal
        rw [same, ← equal] at apart
        exact apart.1 member
      rw [if_pos same, if_pos (same ▸ List.mem_cons_self), if_pos same]
      refine congrArg _ (List.map_congr_left ?_)
      intro k' member
      rw [if_neg (others k' member)]
    · have known : r ∈ k :: rest ↔ r ∈ rest := by
        rw [List.mem_cons]
        exact or_iff_right fun equal => same equal.symm
      rw [if_neg same, ih apart.2, if_neg same]
      by_cases member : r ∈ rest
      · rw [if_pos member, if_pos (known.mpr member)]
      · rw [if_neg member, if_neg fun found => member (known.mp found)]
        rfl

/-- One more reason is counted. -/
theorem addReason_tally (reasons : List Refusal) (r : Refusal) :
    addReason r (tally reasons) = tally (reasons ++ [r]) := by
  have counted : ∀ k, (reasons ++ [r]).count k =
      if k = r then reasons.count k + 1 else reasons.count k := by
    intro k
    rw [List.count_append, List.count_singleton]
    by_cases same : k = r
    · simp [same]
    · simp [same, Ne.symm same]
  rw [tally, tally, addReason_map (nodup_eraseDups reasons), eraseDups_concat]
  simp only [List.mem_eraseDups, counted]
  by_cases known : r ∈ reasons
  · rw [if_pos known, if_pos known, List.append_nil]
  · rw [if_neg known, if_neg known, List.map_append]
    congr 1
    · apply List.map_congr_left
      intro k member
      have other : k ≠ r := by
        intro same
        rw [same, List.mem_eraseDups] at member
        exact known member
      rw [if_neg other]
    · simp [List.count_eq_zero_of_not_mem known]

/-- Going through a list counts its reasons. -/
theorem foldl_addReason (reasons : List Refusal) :
    reasons.foldl (fun counts r => addReason r counts) [] = tally reasons := by
  induction reasons using List.reverseRecOn with
  | nil => rfl
  | append_singleton front r ih =>
    rw [List.foldl_append, ih]
    exact addReason_tally front r

/-- The reasons of results are those that were given in them. -/
theorem reasons_eq (results : List Result) : reasons results = tally (given results) :=
  foldl_addReason (given results)

/-- Counting a reason once more adds one to the sum of the counts. -/
theorem sum_addReason (r : Refusal) (counts : List (Refusal × Nat)) :
    ((addReason r counts).map Prod.snd).sum = (counts.map Prod.snd).sum + 1 := by
  induction counts with
  | nil => rfl
  | cons entry rest ih =>
    simp only [addReason]
    split
    · simp only [List.map_cons, List.sum_cons]
      omega
    · simp only [List.map_cons, List.sum_cons, ih]
      omega

/-- The counts of a list add up to its length. -/
theorem sum_tally (reasons : List Refusal) :
    ((tally reasons).map Prod.snd).sum = reasons.length := by
  induction reasons using List.reverseRecOn with
  | nil => rfl
  | append_singleton front r ih =>
    rw [← addReason_tally, sum_addReason, ih, List.length_append]
    rfl

/-- A total is the sum over all results. -/
theorem total_eq_sum (count : Result → Nat) (results : List Result) :
    total count results = (results.map count).sum := by
  rw [List.sum_eq_foldl, List.foldl_map]
  rfl

/-- As many reasons were given as instructions were refused. -/
theorem length_given (results : List Result) :
    (given results).length = (results.map rejected).sum := by
  rw [given, List.length_flatMap]
  simp only [List.length_map]
  rfl

/-- The count of a reason is kept exactly where the reason was given. -/
theorem mem_tally_iff {reasons : List Refusal} {r : Refusal} {n : Nat} :
    (r, n) ∈ tally reasons ↔ r ∈ reasons ∧ n = reasons.count r := by
  rw [tally, List.mem_map]
  constructor
  · rintro ⟨k, member, same⟩
    obtain ⟨rfl, rfl⟩ := Prod.mk.inj same
    exact ⟨List.mem_eraseDups.mp member, rfl⟩
  · rintro ⟨member, rfl⟩
    exact ⟨r, List.mem_eraseDups.mpr member, rfl⟩

/-- The counts are kept in the order of the first occurrences. -/
theorem pairwise_tally (reasons : List Refusal) :
    (tally reasons).Pairwise fun x y => reasons.idxOf x.1 < reasons.idxOf y.1 := by
  rw [tally, List.pairwise_map]
  exact pairwise_eraseDups reasons

/-- The texts of the reasons that are counted are different. -/
theorem nodup_texts (reasons : List Refusal) :
    ((tally reasons).map fun entry => entry.1.text).Nodup := by
  rw [tally, List.map_map]
  exact (nodup_eraseDups reasons).map Refusal.text_injective

end Result

namespace Statistics

open Numeral (alignLeft)

/-- What is at least as frequent as a more frequent one is as frequent as the less frequent one. -/
theorem atLeast_trans (x y z : Refusal × Nat) (front : decide (x.2 ≥ y.2) = true)
    (back : decide (y.2 ≥ z.2) = true) : decide (x.2 ≥ z.2) = true := by
  rw [decide_eq_true_eq] at front back ⊢
  omega

/-- Of two reasons one is at least as frequent as the other. -/
theorem atLeast_total (x y : Refusal × Nat) :
    (decide (x.2 ≥ y.2) || decide (y.2 ≥ x.2)) = true := by
  simp only [Bool.or_eq_true, decide_eq_true_eq]
  omega

/-- The most frequent reasons are ranked first. -/
theorem pairwise_ranked (reasons : List (Refusal × Nat)) :
    (ranked reasons).Pairwise fun x y => y.2 ≤ x.2 := by
  have sorted := List.pairwise_mergeSort atLeast_trans atLeast_total reasons
  apply sorted.imp
  intro x y order
  exact of_decide_eq_true order

/-- Ranking loses no reason and adds none. -/
theorem perm_ranked (reasons : List (Refusal × Nat)) : (ranked reasons).Perm reasons :=
  List.mergeSort_perm ..

/-- Reasons with one count are ranked as they come. -/
theorem filter_ranked (reasons : List (Refusal × Nat)) (n : Nat) :
    (ranked reasons).filter (fun entry => decide (entry.2 = n)) =
      reasons.filter fun entry => decide (entry.2 = n) := by
  have alike : (reasons.filter fun entry => decide (entry.2 = n)).Pairwise
      fun x y => decide (x.2 ≥ y.2) = true := by
    rw [List.pairwise_filter]
    apply List.pairwise_of_forall
    simp only [decide_eq_true_eq]
    omega
  have kept : (reasons.filter fun entry => decide (entry.2 = n)).Sublist (ranked reasons) :=
    List.sublist_mergeSort atLeast_trans atLeast_total alike List.filter_sublist
  -- The ranking keeps them in a sublist, and as a permutation it has no more of them.
  have inside := kept.filter fun entry => decide (entry.2 = n)
  rw [List.filter_filter] at inside
  simp only [Bool.and_self] at inside
  have same := ((perm_ranked reasons).filter fun entry => decide (entry.2 = n)).length_eq
  exact (inside.eq_of_length same.symm).symm

/-- Reasons that are ranked one behind the other differ in their counts, or they come in this
order. -/
theorem sublist_of_ranked {reasons : List (Refusal × Nat)} {x y : Refusal × Nat}
    (both : [x, y].Sublist (ranked reasons)) (same : x.2 = y.2) : [x, y].Sublist reasons := by
  have filtered := both.filter fun entry => decide (entry.2 = y.2)
  rw [filter_ranked] at filtered
  simp only [same, decide_true, List.filter_cons_of_pos, List.filter_nil] at filtered
  exact filtered.trans List.filter_sublist

/-- Lines about different reasons are different. -/
theorem reason_eq_of_line_eq {x y : Refusal × Nat} (same : reasonLine x = reasonLine y) :
    x.1 = y.1 := by
  have begins : ∀ entry : Refusal × Nat,
      ((reasonLine entry).toList.drop 4).take 2 = entry.1.initials := by
    intro entry
    have long := entry.1.two_le_length_text
    simp only [reasonLine, alignLeft, String.toList_append, List.append_assoc]
    exact List.take_append_of_le_length long
  have letters := congrArg (fun line => (line.toList.drop 4).take 2) same
  simp only [begins] at letters
  exact Refusal.initials_injective letters

/-- Counts of reasons that are listed by their frequency. -/
structure Ranks (reasons : List Refusal) (counts ranking : List (Refusal × Nat)) : Prop where
  /-- The same counts are listed. -/
  perm : ranking.Perm counts
  /-- No two lines are the same. -/
  nodup : (ranking.map reasonLine).Nodup
  /-- The more frequent ones come first, and of two that are as frequent the one that first occurs
  in front of the other. -/
  ordered : ranking.Pairwise fun x y =>
    y.2 < x.2 ∨ x.2 = y.2 ∧ reasons.idxOf x.1 < reasons.idxOf y.1

/-- The counts of a list of reasons are ranked by their frequency. -/
theorem ranks_ranked (reasons : List Refusal) :
    Ranks reasons (Result.tally reasons) (ranked (Result.tally reasons)) := by
  constructor
  case perm => exact perm_ranked _
  case nodup =>
    have perm := (perm_ranked (Result.tally reasons)).map reasonLine
    rw [perm.nodup_iff, List.Nodup, List.pairwise_map]
    apply (Result.pairwise_tally reasons).imp
    intro x y order same
    rw [reason_eq_of_line_eq same] at order
    exact Nat.lt_irrefl _ order
  case ordered =>
    rw [List.pairwise_iff_forall_sublist]
    intro x y both
    have frequent := List.pairwise_iff_forall_sublist.mp (pairwise_ranked _) both
    by_cases same : x.2 = y.2
    · have first := List.pairwise_iff_forall_sublist.mp (Result.pairwise_tally reasons)
        (sublist_of_ranked both same)
      exact .inr ⟨same, first⟩
    · exact .inl (by omega)

/-- The lines in front of the reasons. -/
def heading (results : List Result) : List String :=
  ["", rule, "  CDL Analysis Summary", rule, "",
    countLine "Snapshots" results.length, countLine "Steps" (Result.total Result.steps results),
    countLine "Decoded" (Result.total Result.decoded results),
    countLine "Accepted" (Result.total Result.accepted results),
    countLine "Rejected" (Result.total Result.rejected results),
    countLine "Decode errors" (Result.total Result.decodeErrors results)]

/-- The lines behind the reasons. -/
def closing (rows : List Coverage) : List String :=
  ["", "  Coverage by bank:"] ++ rows.map coverageLine ++ ["", rule]

/-- The lines about a ranking, if there is anything to rank. -/
def listing (ranking : List (Refusal × Nat)) : List String :=
  if ranking = [] then [] else ["", "  Rejections by reason:"] ++ ranking.map reasonLine

/-- The statistics list the ranked counts of the reasons between the totals and the coverage. -/
theorem lines_eq (results : List Result) (rows : List Coverage) :
    lines results rows =
      heading results ++ listing (ranked (Result.tally (Result.given results))) ++
        closing rows := by
  have empty : ranked (Result.reasons results) = [] ↔ Result.reasons results = [] := by
    rw [← List.length_eq_zero_iff, (perm_ranked _).length_eq, List.length_eq_zero_iff]
  have part : reasonLines (Result.reasons results) = listing (ranked (Result.reasons results)) := by
    simp only [reasonLines, listing, empty]
  rw [← Result.reasons_eq, ← part]
  simp only [lines, heading, closing, List.append_assoc]

end Statistics

namespace Summary

/-- The members of a summary show the counts of the reasons that were given in results, and they add
up to the totals. -/
structure Tallies (results : List Result) (summary : List (String × Document))
    (counts : List (Refusal × Nat)) : Prop where
  /-- The counts are shown under the texts of the reasons. -/
  by_reason : summary.lookup "rejections_by_reason" =
    some (.object (counts.map fun entry => (entry.1.text, .int entry.2)))
  /-- The texts are different. -/
  texts : (counts.map fun entry => entry.1.text).Nodup
  /-- A reason is counted exactly if it was given, as often as it was given in all results. -/
  mem_iff : ∀ (r : Refusal) (n : Nat),
    (r, n) ∈ counts ↔ r ∈ Result.given results ∧ n = (Result.given results).count r
  /-- The counts add up to the total that is shown. -/
  total : summary.lookup "total_rejected" = some (.int ((counts.map Prod.snd).sum : Nat))
  /-- They add up to the refused instructions of all results. -/
  sum_eq : (counts.map Prod.snd).sum = (results.map Result.rejected).sum
  /-- Every result is shown with the number of its own. -/
  runs : ∃ runs : List (List (String × Document)),
    summary.lookup "runs" = some (.list (runs.map .object)) ∧
      runs.map (List.lookup "rejected") = results.map fun r => some (.int r.rejected)

/-- The summary shows the counts of the reasons, whatever else it shows. -/
theorem tallies_members (results : List Result) (rows : List Coverage) (manifest : Option String)
    (written : List Path) (references : Option Int) (timing : Option Timing) :
    Tallies results (members results rows manifest written references timing)
      (Result.tally (Result.given results)) := by
  have sum : ((Result.tally (Result.given results)).map Prod.snd).sum =
      (results.map Result.rejected).sum := by
    rw [Result.sum_tally, Result.length_given]
  constructor
  case by_reason =>
    rw [← Result.reasons_eq]
    rfl
  case texts => exact Result.nodup_texts _
  case mem_iff =>
    intro r n
    exact Result.mem_tally_iff
  case total =>
    rw [sum, ← Result.total_eq_sum]
    rfl
  case sum_eq => exact sum
  case runs =>
    refine ⟨results.map fun r => resultMembers r ++ elapsed (timing.map Timing.single), ?_, ?_⟩
    · rw [List.map_map]
      rfl
    · rw [List.map_map]
      rfl

end Summary

/-- Whatever was read into the log of the banks of a set and marked in it since: there is one row of
coverage for every bank, and it adds up. For any results, the summary shows how often each reason
was given, which adds up to the refused instructions of all results, and the statistics list the
same counts by their frequency. -/
theorem report_reconciles {set : BankSet} {store : Cdl.Store}
    (made : store.MadeFor set.declared) (results : List Result) :
    (∃ rows, Coverage.ofSet store set = .ok rows ∧ rows.map Coverage.bank = set.declared ∧
      ∀ c ∈ rows, c.Reconciles store) ∧
    ∃ counts ranking,
      (∀ rows manifest written references timing, Summary.Tallies results
        (Summary.members results rows manifest written references timing) counts) ∧
      Statistics.Ranks (Result.given results) counts ranking ∧
      ∀ rows, Statistics.lines results rows =
        Statistics.heading results ++ Statistics.listing ranking ++ Statistics.closing rows := by
  constructor
  · exact Coverage.exists_ofSet made
  · refine ⟨Result.tally (Result.given results), _, ?_, Statistics.ranks_ranked _, ?_⟩
    · exact Summary.tallies_members results
    · exact Statistics.lines_eq results

namespace Analyzer

/-- The store of the single bank with both bits at its first byte. -/
def doublyMarked : Cdl.Store := soleLog.mark ⟨soleBank.cdl, 0⟩ 1 (Cdl.code ||| Cdl.data)

/-- A result in which an instruction at the end of the bank was refused once for each of some
reasons. -/
def refusing (reasons : List Refusal) : Result where
  snapshot := {}
  seeds := []
  loadedSeeds := []
  visits := reasons.map fun reason =>
    ⟨0x8001, .refused ⟨.filled soleBank 0x60, ⟨1, by decide⟩⟩
      { soleInstruction with address := 0x8001 } reason⟩
  limitReached := false

/-- The byte with both bits is counted as code and as data, and a reason that was given in two
results is counted in both. -/
theorem report_reconciles_sole :
    doublyMarked.MadeFor soleSet.declared ∧
      (∃ rows, Coverage.ofSet doublyMarked soleSet = .ok rows ∧
        ∀ c ∈ rows, c.code + c.data + c.unknown = c.bank.size + 1) ∧
      ∃ counts ranking, (.clv, 2) ∈ counts ∧ (.brk, 1) ∈ counts ∧
        (Summary.members [refusing [.brk, .clv], refusing [.clv]] [] none [] none none).lookup
          "total_rejected" = some (.int 3) ∧
        Statistics.Ranks [.brk, .clv, .clv] counts ranking := by
  have made : doublyMarked.MadeFor soleSet.declared :=
    ⟨Platform.standard.memory, soleLog, rfl, rfl⟩
  have report := report_reconciles made [refusing [.brk, .clv], refusing [.clv]]
  obtain ⟨⟨rows, covered, banks, each⟩, counts, ranking, tallies, ranks, _⟩ := report
  have summary := tallies [] none [] none none
  refine ⟨made, ⟨rows, covered, ?_⟩, counts, ranking, ?_, ?_, ?_, ranks⟩
  · intro c member
    have declared : c.bank ∈ soleSet.declared := banks ▸ List.mem_map_of_mem member
    have sole : c.bank = soleBank := List.mem_singleton.mp declared
    have sum := (each c member).add_eq
    rw [sole] at sum ⊢
    exact sum
  · exact (summary.mem_iff .clv 2).mpr ⟨by decide, by decide⟩
  · exact (summary.mem_iff .brk 1).mpr ⟨by decide, by decide⟩
  · rw [summary.total, summary.sum_eq]
    rfl

end Analyzer

end BankTrace
