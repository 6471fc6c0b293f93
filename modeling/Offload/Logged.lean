import Offload.Text.Basic

/-!
Computations that may fail and that leave records of what they did. The records up to a failure are
kept. `outcome` forgets the records and commutes with sequencing.
-/
namespace Offload

inductive LogLevel
  | warn
  | info
  | debug
  | trace
deriving DecidableEq, Repr

namespace LogLevel

/-- Severe levels have low ranks. -/
def rank : LogLevel → Nat
  | .warn => 0
  | .info => 1
  | .debug => 2
  | .trace => 3

def name : LogLevel → Text
  | .warn => "WARN"
  | .info => "INFO"
  | .debug => "DEBUG"
  | .trace => "TRACE"

end LogLevel

structure LogRecord where
  level : LogLevel
  message : Text
deriving DecidableEq, Repr

namespace LogRecord

/-- Whether a log kept at the given level has the record. -/
def visibleAt (level : LogLevel) (r : LogRecord) : Bool := r.level.rank ≤ level.rank

def render (r : LogRecord) : Text := r.level.name ++ " " ++ r.message

end LogRecord

structure Logged (ε α : Type) where
  outcome : Except ε α
  records : List LogRecord := []

namespace Logged

variable {ε α β : Type}

def bind (x : Logged ε α) (f : α → Logged ε β) : Logged ε β :=
  match x.outcome with
  | .ok a =>
    let y := f a
    ⟨y.outcome, x.records ++ y.records⟩
  | .error e => ⟨.error e, x.records⟩

instance : Monad (Logged ε) where
  pure a := ⟨.ok a, []⟩
  bind := bind

def ofExcept (x : Except ε α) : Logged ε α := ⟨x, []⟩

instance : MonadLift (Except ε) (Logged ε) := ⟨ofExcept⟩

def log (level : LogLevel) (message : Text) : Logged ε Unit := ⟨.ok (), [⟨level, message⟩]⟩

def mapError {ε' : Type} (f : ε → ε') (x : Logged ε α) : Logged ε' α :=
  ⟨x.outcome.mapError f, x.records⟩

@[simp] theorem outcome_pure (a : α) : (pure a : Logged ε α).outcome = .ok a := rfl

@[simp] theorem outcome_bind (x : Logged ε α) (f : α → Logged ε β) :
    (x >>= f).outcome = x.outcome >>= fun a => (f a).outcome := by
  change (bind x f).outcome = _
  unfold bind
  cases x.outcome <;> rfl

@[simp] theorem outcome_ofExcept (x : Except ε α) : (ofExcept x).outcome = x := rfl

@[simp] theorem outcome_log (level : LogLevel) (message : Text) :
    (log level message : Logged ε Unit).outcome = .ok () := rfl

@[simp] theorem outcome_foldlM (f : β → α → Logged ε β) (b : β) (as : List α) :
    (as.foldlM f b).outcome = as.foldlM (fun b a => (f b a).outcome) b := by
  induction as generalizing b with
  | nil => rfl
  | cons a as ih => simp [List.foldlM_cons, ih]

end Logged
end Offload
