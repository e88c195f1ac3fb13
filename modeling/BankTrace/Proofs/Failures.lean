import BankTrace.Error

/-!
# Answers and their errors

A request is a sequence of steps, each of which may fail. The answer is a value when every step
gives one, and what can go wrong in it is what can go wrong in one of the steps.
-/

namespace BankTrace

section

variable {ε δ α β : Type}

/-- Two steps give a value when the first gives one from which the second gives it. -/
theorem bind_eq_ok_iff {answer : Except ε α} {next : α → Except ε β} {b : β} :
    answer >>= next = .ok b ↔ ∃ a, answer = .ok a ∧ next a = .ok b := by
  cases answer with
  | ok a =>
    refine ⟨fun done => ⟨a, rfl, done⟩, ?_⟩
    rintro ⟨_, same, done⟩
    exact Except.ok.inj same ▸ done
  | error e =>
    refine ⟨fun absurdity => ?_, fun ⟨_, absurdity, _⟩ => ?_⟩ <;> contradiction

/-- What is computed from a value is there when the value is. -/
theorem map_eq_ok_iff {answer : Except ε α} {f : α → β} {b : β} :
    answer.map f = .ok b ↔ ∃ a, answer = .ok a ∧ f a = b := by
  cases answer with
  | ok a =>
    refine ⟨fun done => ⟨a, rfl, Except.ok.inj done⟩, ?_⟩
    rintro ⟨_, same, rfl⟩
    rw [Except.ok.inj same]
    rfl
  | error e =>
    refine ⟨fun absurdity => ?_, fun ⟨_, absurdity, _⟩ => ?_⟩ <;> contradiction

/-- Other errors change no value. -/
theorem mapError_eq_ok_iff {answer : Except ε α} {f : ε → δ} {a : α} :
    answer.mapError f = .ok a ↔ answer = .ok a := by
  cases answer with
  | ok b =>
    constructor <;> intro same <;> exact congrArg _ (Except.ok.inj same)
  | error e => constructor <;> intro absurdity <;> contradiction

end

/-! ## Requests for a list -/

section

variable {α β ε : Type} {request : α → Except ε β} {as : List α} {bs : List β}

/-- The requests for a list are answered when the first one is and the others are. -/
theorem exists_of_mapM_cons {a : α} (done : (a :: as).mapM request = .ok bs) :
    ∃ b tail, request a = .ok b ∧ as.mapM request = .ok tail ∧ bs = b :: tail := by
  rw [List.mapM_cons] at done
  obtain ⟨b, first, done⟩ := bind_eq_ok_iff.mp done
  obtain ⟨tail, others, done⟩ := bind_eq_ok_iff.mp done
  exact ⟨b, tail, first, others, (Except.ok.inj done).symm⟩

/-- When all requests of a list succeed, their answers are known one by one. -/
theorem eq_map_of_mapM {answer : α → β} (each : ∀ a b, request a = .ok b → b = answer a)
    (done : as.mapM request = .ok bs) : bs = as.map answer := by
  induction as generalizing bs with
  | nil => exact (Except.ok.inj done).symm
  | cons a rest ih =>
    obtain ⟨b, tail, first, others, rfl⟩ := exists_of_mapM_cons done
    rw [ih others, each a b first]
    rfl

/-- When all requests of a list are answered, so is each of them. -/
theorem exists_answer_of_mapM (done : as.mapM request = .ok bs) {a : α} (member : a ∈ as) :
    ∃ b, request a = .ok b := by
  induction as generalizing bs with
  | nil => contradiction
  | cons first rest ih =>
    obtain ⟨b, tail, answer, others, _⟩ := exists_of_mapM_cons done
    rcases List.mem_cons.mp member with rfl | later
    · exact ⟨b, answer⟩
    · exact ih others later

/-- Every answer to the requests for a list is the answer to one of them. -/
theorem exists_request_of_mapM (done : as.mapM request = .ok bs) {b : β} (member : b ∈ bs) :
    ∃ a ∈ as, request a = .ok b := by
  induction as generalizing bs with
  | nil =>
    obtain rfl : [] = bs := Except.ok.inj done
    contradiction
  | cons first rest ih =>
    obtain ⟨c, tail, answer, others, rfl⟩ := exists_of_mapM_cons done
    rcases List.mem_cons.mp member with rfl | later
    · exact ⟨first, List.mem_cons_self, answer⟩
    · obtain ⟨a, known, found⟩ := ih others later
      exact ⟨a, List.mem_cons_of_mem _ known, found⟩

end

/-- A list of requests each of which can be answered can be answered. -/
theorem exists_mapM {α β ε : Type} {request : α → Except ε β} {as : List α}
    (each : ∀ a ∈ as, ∃ b, request a = .ok b) : ∃ bs, as.mapM request = .ok bs := by
  induction as with
  | nil => exact ⟨[], rfl⟩
  | cons a rest ih =>
    obtain ⟨b, first⟩ := each a List.mem_cons_self
    obtain ⟨bs, others⟩ := ih fun a' behind => each a' (List.mem_cons_of_mem a behind)
    refine ⟨b :: bs, ?_⟩
    rw [List.mapM_cons, first, others]
    rfl

/-- A list of requests each of which has a known answer has these answers. -/
theorem mapM_eq_ok_map {α β ε : Type} {request : α → Except ε β} {answer : α → β} {as : List α}
    (each : ∀ a ∈ as, request a = .ok (answer a)) : as.mapM request = .ok (as.map answer) := by
  induction as with
  | nil => rfl
  | cons a rest ih =>
    have others := ih fun a' behind => each a' (List.mem_cons_of_mem a behind)
    rw [List.mapM_cons, each a List.mem_cons_self, others]
    rfl

/-! ## Errors -/

/-- An answer that is an error is one of these errors. -/
def FailsOnly {α : Type} (errors : Error → Prop) (answer : Except Error α) : Prop :=
  ∀ e, answer = .error e → errors e

namespace FailsOnly

variable {α β : Type} {errors : Error → Prop}

/-- A value is no error. -/
theorem ok (a : α) : FailsOnly errors (.ok a) := by
  intro e absurdity
  contradiction

/-- An error is what it is. -/
theorem error {e : Error} (known : errors e) : FailsOnly errors (.error e : Except Error α) := by
  intro other same
  exact Except.error.inj same ▸ known

/-- An error is what it is in every answer. -/
theorem of_error {e : Error} (fails : FailsOnly errors (.error e : Except Error α)) :
    FailsOnly errors (.error e : Except Error β) :=
  error (fails e rfl)

/-- More errors may be allowed. -/
theorem mono {answer : Except Error α} (fails : FailsOnly errors answer) {others : Error → Prop}
    (more : ∀ e, errors e → others e) : FailsOnly others answer :=
  fun e same => more e (fails e same)

/-- What is computed from the value of an answer brings no error. -/
theorem map {answer : Except Error α} (fails : FailsOnly errors answer) (f : α → β) :
    FailsOnly errors (answer.map f) := by
  cases answer with
  | ok a => exact ok (f a)
  | error e => exact of_error fails

/-- Two steps have only the errors that each of them has. -/
theorem bind {answer : Except Error α} {next : α → Except Error β} (first : FailsOnly errors answer)
    (second : ∀ a, answer = .ok a → FailsOnly errors (next a)) :
    FailsOnly errors (answer >>= next) := by
  cases answer with
  | ok a => exact second a rfl
  | error e => exact of_error first

/-- Steps for all elements of a list have only the errors that each of them has. -/
theorem mapM {step : α → Except Error β} {list : List α}
    (each : ∀ a ∈ list, FailsOnly errors (step a)) : FailsOnly errors (list.mapM step) := by
  induction list with
  | nil => exact ok []
  | cons a rest ih =>
    rw [List.mapM_cons]
    refine bind (each a List.mem_cons_self) fun _ _ => ?_
    exact bind (ih fun b member => each b (List.mem_cons_of_mem a member)) fun _ _ => ok _

end FailsOnly

end BankTrace
