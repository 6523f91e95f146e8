import TickVault.Proofs.Ledger.Attempt

/-!
Two computations that do the same on related data. `Agree` compares answers: both are faults, and
the same one, or both are values, and related. `Parallel` compares work on two related states, also
where it fails and leaves behind what it had done. Both are closed under all that a call is built
from, so that the work of a call is compared step by step.
-/

namespace TickVault

variable {α β γ δ σ : Type}

inductive Agree (related : α → β → Prop) : Except Fault α → Except Fault β → Prop
  | ok {a : α} {b : β} (answers : related a b) : Agree related (.ok a) (.ok b)
  | error (fault : Fault) : Agree related (.error fault) (.error fault)

namespace Agree

variable {related : α → β → Prop} {related' : γ → δ → Prop} {first : Except Fault α}
  {second : Except Fault β}

theorem same (answer : Except Fault α) : Agree Eq answer answer := by
  cases answer with
  | ok a => exact .ok rfl
  | error fault => exact .error fault

theorem eq {answer answer' : Except Fault α} (agree : Agree Eq answer answer') :
    answer = answer' := by
  cases agree with
  | ok answers => rw [answers]
  | error fault => rfl

theorem bind {next : α → Except Fault γ} {next' : β → Except Fault δ}
    (agree : Agree related first second)
    (step : ∀ a b, related a b → Agree related' (next a) (next' b)) :
    Agree related' (first >>= next) (second >>= next') := by
  cases agree with
  | ok answers => exact step _ _ answers
  | error fault => exact .error fault

theorem after {answer : Except Fault α} {next : α → Except Fault γ} {next' : α → Except Fault δ}
    (step : ∀ a, answer = .ok a → Agree related' (next a) (next' a)) :
    Agree related' (answer >>= next) (answer >>= next') := by
  cases answer with
  | ok a => exact step a rfl
  | error fault => exact .error fault

theorem map {change : α → γ} {change' : β → δ} (agree : Agree related first second)
    (step : ∀ a b, related a b → related' (change a) (change' b)) :
    Agree related' (first.map change) (second.map change') := by
  cases agree with
  | ok answers => exact .ok (step _ _ answers)
  | error fault => exact .error fault

theorem ite (condition : Prop) [Decidable condition] {left right : Except Fault α}
    {left' right' : Except Fault β} (holds : Agree related left left')
    (fails : Agree related right right') :
    Agree related (if condition then left else right) (if condition then left' else right') := by
  split
  · exact holds
  · exact fails

end Agree

inductive Beside (twin : σ → σ → Prop) : α × σ → α × σ → Prop
  | intro (answer : α) {s s' : σ} (twins : twin s s') : Beside twin (answer, s) (answer, s')

/-- Work on two related states that agrees in its answer, and leaves related states behind. -/
structure Parallel (twin : σ → σ → Prop) (related : α → β → Prop)
    (work : ExceptT Fault (StateM σ) α) (work' : ExceptT Fault (StateM σ) β) : Prop where
  answers : ∀ s s', twin s s' → Agree related (work.run.run s).1 (work'.run.run s').1
  states : ∀ s s', twin s s' → twin (work.run.run s).2 (work'.run.run s').2

namespace Parallel

variable {twin : σ → σ → Prop} {related : α → β → Prop} {related' : γ → δ → Prop}
  {work : ExceptT Fault (StateM σ) α} {work' : ExceptT Fault (StateM σ) β}

theorem lift {answer : Except Fault α} {answer' : Except Fault β}
    (agree : Agree related answer answer') :
    Parallel twin related (liftM answer) (liftM answer') where
  answers _ _ _ := by
    cases agree with
    | ok answers => exact .ok answers
    | error fault => exact .error fault
  states _ _ twins := by
    cases agree with
    | ok _ => exact twins
    | error fault => exact twins

theorem pure {a : α} {b : β} (answers : related a b) :
    Parallel twin related (Pure.pure a) (Pure.pure b) :=
  lift (.ok answers)

theorem same (work : ExceptT Fault (StateM σ) α) : Parallel Eq Eq work work where
  answers s _ twins := by
    rw [← twins]
    exact .same _
  states s _ twins := by rw [← twins]

theorem read : Parallel twin twin get get where
  answers _ _ twins := .ok twins
  states _ _ twins := twins

theorem write {change change' : σ → σ} (keeps : ∀ s s', twin s s' → twin (change s) (change' s')) :
    Parallel twin Eq (modify change) (modify change') where
  answers _ _ _ := .ok rfl
  states := keeps

theorem bind {next : α → ExceptT Fault (StateM σ) γ} {next' : β → ExceptT Fault (StateM σ) δ}
    (parallel : Parallel twin related work work')
    (step : ∀ a b, related a b → Parallel twin related' (next a) (next' b)) :
    Parallel twin related' (work >>= next) (work' >>= next') := by
  have run (s s' : σ) (twins : twin s s') :
      Agree related' ((work >>= next).run.run s).1 ((work' >>= next').run.run s').1 ∧
        twin ((work >>= next).run.run s).2 ((work' >>= next').run.run s').2 := by
    have answers := parallel.answers s s' twins
    have states := parallel.states s s' twins
    simp only [Bind.bind, ExceptT.bind, ExceptT.run, ExceptT.mk, StateT.run, StateT.bind,
      ExceptT.bindCont] at answers states ⊢
    generalize work s = left at *
    generalize work' s' = right at *
    obtain ⟨answer, after⟩ := left
    obtain ⟨answer', after'⟩ := right
    cases answers with
    | ok answers =>
      have later := step _ _ answers
      exact ⟨later.answers _ _ states, later.states _ _ states⟩
    | error fault => exact ⟨.error fault, states⟩
  exact ⟨fun s s' twins => (run s s' twins).1, fun s s' twins => (run s s' twins).2⟩

theorem after {work : ExceptT Fault (StateM σ) α} {next : α → ExceptT Fault (StateM σ) γ}
    {next' : α → ExceptT Fault (StateM σ) δ} (parallel : Parallel twin Eq work work)
    (step : ∀ a, Parallel twin related' (next a) (next' a)) :
    Parallel twin related' (work >>= next) (work >>= next') := by
  apply parallel.bind
  rintro a _ rfl
  exact step a

theorem after_lift {answer : Except Fault α} {next : α → ExceptT Fault (StateM σ) γ}
    {next' : α → ExceptT Fault (StateM σ) δ}
    (step : ∀ a, answer = .ok a → Parallel twin related' (next a) (next' a)) :
    Parallel twin related' (liftM answer >>= next) (liftM answer >>= next') := by
  have lifted : Parallel twin (fun a b => a = b ∧ answer = .ok a) (liftM answer)
      (liftM answer) := by
    cases answer with
    | ok a => exact lift (.ok ⟨rfl, rfl⟩)
    | error fault => exact lift (.error fault)
  apply lifted.bind
  rintro a _ ⟨rfl, same⟩
  exact step a same

theorem ite (condition : Prop) [Decidable condition]
    {left right : ExceptT Fault (StateM σ) α} {left' right' : ExceptT Fault (StateM σ) β}
    (holds : Parallel twin related left left') (fails : Parallel twin related right right') :
    Parallel twin related (if condition then left else right)
      (if condition then left' else right') := by
  split
  · exact holds
  · exact fails

theorem attempt {work : ExceptT Fault (StateM σ) α} (parallel : Parallel twin Eq work work)
    {s s' : σ} (twins : twin s s') :
    Agree (Beside twin) (attempt s work) (attempt s' work) := by
  have answers := parallel.answers s s' twins
  have states := parallel.states s s' twins
  unfold TickVault.attempt
  generalize work.run.run s = left at *
  generalize work.run.run s' = right at *
  obtain ⟨answer, after⟩ := left
  obtain ⟨answer', after'⟩ := right
  cases answers with
  | ok answers =>
    subst answers
    exact .ok ⟨_, states⟩
  | error fault => exact .error fault

end Parallel

end TickVault
