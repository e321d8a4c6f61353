/-
This file gives the rules for handlers whose exceptions are swallowed. What such
a handler had done when it stopped is kept, so a claim about it has two sides:
what holds of a finished run, and what holds of the state left by a stopped one.
-/

import Zattera.Lib.Program

namespace Program

variable {ε σ α β : Type}

/-- Started in `s` the program returns and leaves what `post` says, or it stops in a state that
`stopped` allows. -/
def Leaves (x : EStateM ε σ α) (s : σ) (post : α → σ → Prop) (stopped : σ → Prop) : Prop :=
  match x s with
  | .ok a t => post a t
  | .error _ t => stopped t

namespace Leaves

variable {x : EStateM ε σ α} {f : α → EStateM ε σ β} {s : σ} {middle : α → σ → Prop}
  {post : β → σ → Prop} {stopped : σ → Prop}

theorem ok {a : α} {t : σ} (leaves : Leaves x s middle stopped) (run : x s = .ok a t) :
    middle a t := by
  unfold Leaves at leaves
  rwa [run] at leaves

theorem bind (first : Leaves x s middle stopped)
    (second : ∀ a t, x s = .ok a t → middle a t → Leaves (f a) t post stopped) :
    Leaves (x >>= f) s post stopped := by
  unfold Leaves at first ⊢
  split at first
  · next a t run =>
    rw [bind_of_ok run]
    exact second a t run first
  · next run =>
    rw [bind_of_error run]
    exact first

theorem done {b : β} (holds : post b s) : Leaves (pure b : EStateM ε σ β) s post stopped := holds

theorem throw {e : ε} (holds : stopped s) :
    Leaves (MonadExcept.throw e : EStateM ε σ β) s post stopped := holds

theorem read {f : σ → EStateM ε σ β} (later : Leaves (f s) s post stopped) :
    Leaves (get >>= f) s post stopped := later

theorem lift {y : Except ε α} (holds : stopped s)
    (later : ∀ a, y = .ok a → Leaves (f a) s post stopped) :
    Leaves ((liftM y : EStateM ε σ α) >>= f) s post stopped := by
  cases y with
  | ok a => exact later a rfl
  | error e => exact holds

theorem require {condition : Prop} [Decidable condition] {e : ε} {f : Unit → EStateM ε σ β}
    (holds : stopped s) (later : condition → Leaves (f ()) s post stopped) :
    Leaves (Program.require condition e >>= f) s post stopped := by
  unfold Program.require
  split
  · next satisfied => exact later satisfied
  · exact holds

end Leaves

end Program
