import DatePhrase.Grammar.Basic

/-! Answers with what was noted on the way. A fault ends the computation; notes made before it
stay. The outcome of a composite answer depends on the outcomes of its parts alone. -/
namespace DatePhrase
open Calendar

/-- Something a user should know, although an answer is given. -/
inductive Notice where
  /-- The list of languages was empty. -/
  | noLanguages
  | unsupported (language : String)
  /-- A grammar failed and has no say in this answer. -/
  | excluded (language message : String)
  deriving DecidableEq, Repr

def Notice.text : Notice → String
  | noLanguages => "No languages configured, falling back to " ++ defaultLanguage
  | unsupported language => "Skipping language: unsupported language: " ++ language
  | excluded language message =>
    "Excluding " ++ language ++ " grammar from arbitration: " ++
      Grammar.failureText language message

/-- A value, or the fault in its place, with the notices in the order in which they were made. -/
structure Answer (α : Type) where
  outcome : Except Fault α
  notices : List Notice

namespace Answer
variable {α β γ : Type}

instance : Monad Answer where
  pure a := ⟨.ok a, []⟩
  bind x f := match x.outcome with
    | .ok a => ⟨(f a).outcome, x.notices ++ (f a).notices⟩
    | .error e => ⟨.error e, x.notices⟩

def ofExcept (x : Except Fault α) : Answer α := ⟨x, []⟩

instance : MonadLift (Except Fault) Answer := ⟨ofExcept⟩

def note (n : Notice) : Answer Unit := ⟨.ok (), [n]⟩

@[simp] theorem outcome_pure (a : α) : (pure a : Answer α).outcome = .ok a := rfl

@[simp] theorem outcome_ofExcept (x : Except Fault α) : (ofExcept x).outcome = x := rfl

@[simp] theorem outcome_liftM (x : Except Fault α) : (liftM x : Answer α).outcome = x := rfl

@[simp] theorem outcome_bind (x : Answer α) (f : α → Answer β) :
    (x >>= f).outcome = x.outcome >>= fun a => (f a).outcome := by
  obtain ⟨o, ns⟩ := x
  cases o <;> rfl

protected theorem id_map (x : Answer α) : id <$> x = x := by
  obtain ⟨o, ns⟩ := x
  cases o <;> simp [Functor.map]

protected theorem pure_bind (a : α) (f : α → Answer β) : pure a >>= f = f a := by
  simp [bind, pure]

protected theorem bind_assoc (x : Answer α) (f : α → Answer β) (g : β → Answer γ) :
    x >>= f >>= g = x >>= fun a => f a >>= g := by
  obtain ⟨o, ns⟩ := x
  cases o with
  | error e => rfl
  | ok a => cases h : (f a).outcome <;> simp [bind, h]

instance : LawfulMonad Answer :=
  .mk' Answer Answer.id_map Answer.pure_bind Answer.bind_assoc

@[simp] theorem outcome_map (f : α → β) (x : Answer α) :
    (f <$> x).outcome = f <$> x.outcome := by
  obtain ⟨o, ns⟩ := x
  cases o <;> rfl

/-- What a list of answers comes to depends on what each comes to, not on their notices. -/
theorem outcome_mapM (f : α → Answer β) (xs : List α) :
    (xs.mapM f).outcome = xs.mapM fun x => (f x).outcome := by
  induction xs with
  | nil => rfl
  | cons x xs ih => simp only [List.mapM_cons, outcome_bind, ih, outcome_pure]; rfl

end Answer

end DatePhrase
