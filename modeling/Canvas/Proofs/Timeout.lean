import Canvas.Executor

/-!
# Limits around limits

An executor whose time is limited can be limited again, any number of times. Two limits, one around
the other, act as the smaller one, whichever of them is inside. An inner limit that is reached ends
the execution in time for an outer one that is not smaller, also if they are equal, and the error
names the limit that was reached first. So limits around each other act as the smallest of them.
-/

namespace Canvas

namespace Executor

variable {limits : List Nat} {limitMs : Nat} {completion : Completion}

/-- How an execution ends that a limit cuts off. -/
def Completion.timedOut (limitMs : Nat) : Completion :=
  ⟨.error (.executionFailed ("timed out after " ++ toString limitMs ++ "ms")), limitMs⟩

theorem Completion.limited_of_le (inTime : completion.elapsedMs ≤ limitMs) :
    limited limitMs completion = completion :=
  if_pos inTime

theorem Completion.limited_of_lt (late : limitMs < completion.elapsedMs) :
    limited limitMs completion = timedOut limitMs :=
  if_neg (Nat.not_le_of_lt late)

theorem Completion.elapsedMs_limited_le (limitMs : Nat) (completion : Completion) :
    (limited limitMs completion).elapsedMs ≤ limitMs := by
  by_cases inTime : completion.elapsedMs ≤ limitMs
  · rw [limited_of_le inTime]
    exact inTime
  · rw [limited_of_lt (Nat.lt_of_not_le inTime)]
    exact Nat.le_refl _

/-- A limit around a limit acts as the smaller of the two. -/
theorem Completion.limited_limited (outerMs innerMs : Nat) (completion : Completion) :
    limited outerMs (limited innerMs completion) = limited (min outerMs innerMs) completion := by
  rcases Nat.lt_or_ge outerMs innerMs with narrow | narrow
  · rw [Nat.min_eq_left (Nat.le_of_lt narrow)]
    by_cases inTime : completion.elapsedMs ≤ innerMs
    · rw [limited_of_le inTime]
    · have late : innerMs < completion.elapsedMs := Nat.lt_of_not_le inTime
      rw [limited_of_lt late, limited_of_lt (Nat.lt_trans narrow late)]
      exact limited_of_lt narrow
  -- Whatever the inner limit lets pass or cuts off ends in time for the outer one.
  · rw [Nat.min_eq_right narrow]
    exact limited_of_le (Nat.le_trans (elapsedMs_limited_le _ _) narrow)

/-- The same executor with limits around it, the first one outermost. -/
def withTimeouts (limits : List Nat) (inner : Executor) : Executor :=
  limits.foldr withTimeout inner

/-- Limits around each other act as the smallest of them. -/
theorem execute_withTimeouts {least : Nat} (smallest : limits.min? = some least)
    (inner : Executor) (call : Invocation) :
    (withTimeouts limits inner).execute call =
      Completion.limited least (inner.execute call) := by
  induction limits generalizing least with
  | nil => contradiction
  | cons limitMs rest ih =>
      rw [List.min?_cons] at smallest
      change Completion.limited limitMs ((withTimeouts rest inner).execute call) = _
      cases inside : rest.min? with
      | none =>
          rw [inside] at smallest
          obtain rfl := Option.some.inj smallest
          rw [List.min?_eq_none_iff.1 inside]
          rfl
      | some innerMs =>
          rw [inside] at smallest
          obtain rfl := Option.some.inj smallest
          rw [ih inside, Completion.limited_limited]
          rfl

/-- An executor with limits around it, in whatever order, ends as it does alone if it takes no
longer than the smallest of them, and else at the smallest with an error that names it. -/
theorem ends_at_smallest_limit {inner : Executor} {call : Invocation}
    {result : Except StepError Record} {elapsedMs : Nat} (nonempty : limits ≠ [])
    (ends : inner.execute call = ⟨result, elapsedMs⟩) :
    let least := limits.min nonempty
    (least ∈ limits ∧ ∀ limitMs ∈ limits, least ≤ limitMs) ∧
    (elapsedMs ≤ least → (withTimeouts limits inner).execute call = ⟨result, elapsedMs⟩) ∧
    (least < elapsedMs → (withTimeouts limits inner).execute call =
      ⟨.error (.executionFailed ("timed out after " ++ toString least ++ "ms")), least⟩) := by
  intro least
  have smallest : limits.min? = some least := List.min?_eq_some_min nonempty
  rw [execute_withTimeouts smallest, ends]
  refine ⟨List.min?_eq_some_iff.1 smallest, fun inTime => ?_, fun late => ?_⟩
  · exact Completion.limited_of_le inTime
  · exact Completion.limited_of_lt late

/-- Of three limits the smallest stands in the middle. It cuts off a delay of half a second, and a
delay that ends with it is in time. -/
theorem ends_at_limit_in_the_middle :
    let tower := withTimeouts [30, 10, 20] (delay .generate)
    let call (delayMs : Nat) : Invocation :=
      ⟨0, Dict.empty, Dict.ofList [("delay_ms", .int delayMs)]⟩
    ([30, 10, 20] ≠ [] ∧ (delay .generate).execute (call 500) = ⟨.ok Dict.empty, 500⟩ ∧
      (delay .generate).execute (call 10) = ⟨.ok Dict.empty, 10⟩) ∧
    tower.execute (call 500) = ⟨.error (.executionFailed "timed out after 10ms"), 10⟩ ∧
    tower.execute (call 10) = ⟨.ok Dict.empty, 10⟩ := by
  intro tower call
  have slow : (delay .generate).execute (call 500) = ⟨.ok Dict.empty, 500⟩ := rfl
  have inTime : (delay .generate).execute (call 10) = ⟨.ok Dict.empty, 10⟩ := rfl
  have nonempty : [30, 10, 20] ≠ [] := List.cons_ne_nil _ _
  have least : [30, 10, 20].min nonempty = 10 := rfl
  have text : "timed out after " ++ toString 10 ++ "ms" = "timed out after 10ms" := by decide
  have cut := (ends_at_smallest_limit nonempty slow).2.2
  have kept := (ends_at_smallest_limit nonempty inTime).2.1
  rw [least] at cut kept
  rw [text] at cut
  exact ⟨⟨nonempty, slow, inTime⟩, cut (by decide), kept (by decide)⟩

end Executor

end Canvas
