import OpeningHand.Failure
import OpeningHand.Journal

/-!
# Jobs one after another

How a job goes on from another: with its result as the chain of their results, and with the records
of the first before those of the second, or without the second if the first failed.
-/

namespace OpeningHand

variable {ε α β : Type}

/-- One job after another answers as the chain of their results. -/
theorem Recorded.result_bind (job : Recorded ε α) (next : α → Recorded ε β) :
    (job >>= next).result = job.result >>= fun a => (next a).result := by
  cases hjob : job.result with
  | error e =>
    show (Recorded.bind job next).result = _
    rw [Recorded.bind, hjob]
    rfl
  | ok a =>
    show (Recorded.bind job next).result = _
    rw [Recorded.bind, hjob]
    rfl

theorem Recorded.bind_of_error {job : Recorded ε α} {next : α → Recorded ε β} {e : ε}
    (h : job.result = .error e) :
    job >>= next = ⟨job.records, .error e⟩ := by
  show Recorded.bind job next = _
  rw [Recorded.bind, h]

theorem Recorded.bind_of_ok {job : Recorded ε α} {next : α → Recorded ε β} {a : α}
    (h : job.result = .ok a) :
    job >>= next = ⟨job.records ++ (next a).records, (next a).result⟩ := by
  show Recorded.bind job next = _
  rw [Recorded.bind, h]

theorem Recorded.ofExcept_ok_bind (a : α) (next : α → Recorded ε β) :
    (.ofExcept (.ok a) >>= next) = next a :=
  rfl

/-- A record that a job makes first comes first in what goes on with the job. -/
theorem Recorded.cons_bind (r : Record) (job : Recorded ε α) (next : α → Recorded ε β) :
    ((⟨r :: job.records, job.result⟩ : Recorded ε α) >>= next) =
      ⟨r :: (job >>= next).records, (job >>= next).result⟩ := by
  cases h : job.result with
  | error e => rw [bind_of_error h]; rfl
  | ok a => rw [bind_of_ok h]; rfl

/-- A job that is given another form at its end makes no further record. -/
theorem Recorded.bind_pure (job : Recorded ε α) (f : α → β) :
    (do return f (← job)) = ⟨job.records, job.result.map f⟩ := by
  cases h : job.result with
  | error e => rw [bind_of_error h]; rfl
  | ok a =>
    rw [bind_of_ok h]
    show Recorded.mk (job.records ++ []) _ = _
    rw [List.append_nil]
    rfl

end OpeningHand
