/-
This file collects the rules for programs that change a state and may stop with
an error. Such a program keeps the state it had reached when it stopped, so a
failed run can be told apart from one that was never started. A finished run is
taken apart by the `_eq_ok` lemmas, one per way of building a program; a relation
that every part of a program respects is carried through by `Respects`.
-/

import Mathlib.Data.List.Basic

namespace Program

variable {ε σ α β : Type}

variable {s t : σ} {x : EStateM ε σ α} {e : ε} {a : α} {f : α → EStateM ε σ β} {items : List α}
  {b : β} {Inv : σ → Prop} {u : Unit}

/-! ### Taking a finished run apart -/

/-- A computation that does not touch the state, run inside a program. -/
instance instMonadLiftExcept : MonadLift (Except ε) (EStateM ε σ) where
  monadLift x state := match x with
    | .ok value => .ok value state
    | .error error => .error error state

/-- Stop with `error` unless the condition holds. -/
def require (condition : Prop) [Decidable condition] (error : ε) : EStateM ε σ Unit :=
  if condition then pure () else throw error

/-- Run a program only when the condition holds. -/
def whenever (condition : Prop) [Decidable condition] (x : EStateM ε σ Unit) :
    EStateM ε σ Unit :=
  if condition then x else pure ()

theorem bind_eq_ok : (x >>= f) s = .ok b t ↔ ∃ a u, x s = .ok a u ∧ f a u = .ok b t := by
  change EStateM.bind x f s = _ ↔ _
  unfold EStateM.bind
  cases run : x s with
  | ok a u =>
    constructor
    · intro finished
      exact ⟨a, u, rfl, finished⟩
    · rintro ⟨a', u', equal, finished⟩
      cases equal
      exact finished
  | error e u =>
    constructor
    · intro finished
      cases finished
    · rintro ⟨a', u', equal, _⟩
      cases equal

theorem map_eq_ok {f : α → β} : (f <$> x) s = .ok b t ↔ ∃ a, x s = .ok a t ∧ f a = b := by
  change EStateM.map f x s = _ ↔ _
  unfold EStateM.map
  cases run : x s with
  | ok a u =>
    simp only [EStateM.Result.ok.injEq]
    constructor
    · rintro ⟨rfl, rfl⟩
      exact ⟨a, ⟨rfl, rfl⟩, rfl⟩
    · rintro ⟨a', ⟨rfl, rfl⟩, rfl⟩
      exact ⟨rfl, rfl⟩
  | error e u => simp

theorem discard_eq_ok {u : PUnit} : discard x s = .ok u t ↔ ∃ a, x s = .ok a t := by
  change (Function.const α PUnit.unit <$> x) s = _ ↔ _
  rw [map_eq_ok]
  simp

@[simp]
theorem pure_eq_ok {b : α} : (pure a : EStateM ε σ α) s = .ok b t ↔ a = b ∧ s = t := by
  change EStateM.Result.ok a s = _ ↔ _
  rw [EStateM.Result.ok.injEq]

@[simp]
theorem throw_eq_ok {b : α} : (throw e : EStateM ε σ α) s = .ok b t ↔ False := by
  change EStateM.Result.error e s = _ ↔ _
  simp

@[simp]
theorem get_eq_ok {u : σ} : (get : EStateM ε σ σ) s = .ok u t ↔ s = u ∧ s = t := by
  change EStateM.Result.ok s s = _ ↔ _
  rw [EStateM.Result.ok.injEq]

theorem get_bind_eq_ok {f : σ → EStateM ε σ β} : (get >>= f) s = .ok b t ↔ f s s = .ok b t := Iff.rfl

@[simp]
theorem set_eq_ok {u : σ} {b : PUnit} : (set u : EStateM ε σ PUnit) s = .ok b t ↔ u = t := by
  change EStateM.Result.ok PUnit.unit u = _ ↔ _
  simp

@[simp]
theorem modify_eq_ok {f : σ → σ} {b : PUnit} :
    (modify f : EStateM ε σ PUnit) s = .ok b t ↔ f s = t := by
  change EStateM.Result.ok PUnit.unit (f s) = _ ↔ _
  simp

@[simp]
theorem lift_eq_ok {x : Except ε α} :
    (liftM x : EStateM ε σ α) s = .ok a t ↔ x = .ok a ∧ s = t := by
  cases x with
  | ok value =>
    change EStateM.Result.ok value s = _ ↔ _
    simp
  | error error =>
    change EStateM.Result.error error s = _ ↔ _
    simp

@[simp]
theorem require_eq_ok {condition : Prop} [Decidable condition] :
    (require condition e : EStateM ε σ Unit) s = .ok u t ↔ condition ∧ s = t := by
  unfold require
  split <;> simp_all

theorem whenever_eq_ok {condition : Prop} [Decidable condition] {x : EStateM ε σ Unit} :
    whenever condition x s = .ok u t ↔
      (condition ∧ x s = .ok () t) ∨ (¬ condition ∧ s = t) := by
  unfold whenever
  split <;> simp_all

/-! ### Taking a stopped run apart -/

theorem bind_eq_error :
    (x >>= f) s = .error e t ↔
      x s = .error e t ∨ ∃ a u, x s = .ok a u ∧ f a u = .error e t := by
  change EStateM.bind x f s = _ ↔ _
  unfold EStateM.bind
  cases run : x s with
  | ok a u => simp
  | error e u => simp

@[simp]
theorem pure_eq_error : (pure a : EStateM ε σ α) s = .error e t ↔ False := by
  change EStateM.Result.ok a s = _ ↔ _
  simp

@[simp]
theorem throw_eq_error {f : ε} : (throw e : EStateM ε σ α) s = .error f t ↔ e = f ∧ s = t := by
  change EStateM.Result.error e s = _ ↔ _
  rw [EStateM.Result.error.injEq]

@[simp]
theorem get_eq_error : (get : EStateM ε σ σ) s = .error e t ↔ False := by
  change EStateM.Result.ok s s = _ ↔ _
  simp

@[simp]
theorem modify_eq_error {f : σ → σ} : (modify f : EStateM ε σ PUnit) s = .error e t ↔ False := by
  change EStateM.Result.ok PUnit.unit (f s) = _ ↔ _
  simp

@[simp]
theorem lift_eq_error {x : Except ε α} :
    (liftM x : EStateM ε σ α) s = .error e t ↔ x = .error e ∧ s = t := by
  cases x with
  | ok value =>
    change EStateM.Result.ok value s = _ ↔ _
    simp
  | error error =>
    change EStateM.Result.error error s = _ ↔ _
    simp

@[simp]
theorem require_eq_error {condition : Prop} [Decidable condition] {f : ε} :
    (require condition e : EStateM ε σ Unit) s = .error f t ↔ ¬ condition ∧ e = f ∧ s = t := by
  unfold require
  split <;> simp_all

theorem whenever_eq_error {condition : Prop} [Decidable condition] {x : EStateM ε σ Unit} :
    whenever condition x s = .error e t ↔ condition ∧ x s = .error e t := by
  unfold whenever
  split <;> simp_all

/-! ### Running a program forward -/

theorem bind_of_ok (run : x s = .ok a t) : (x >>= f) s = f a t := by
  change EStateM.bind x f s = _
  unfold EStateM.bind
  rw [run]

theorem get_bind {f : σ → EStateM ε σ β} : (get >>= f) s = f s s := rfl

theorem modify_bind {change : σ → σ} {f : PUnit → EStateM ε σ β} :
    (modify change >>= f) s = f .unit (change s) := rfl

theorem bind_of_error (run : x s = .error e t) : (x >>= f) s = .error e t := by
  change EStateM.bind x f s = _
  unfold EStateM.bind
  rw [run]

theorem require_of {condition : Prop} [Decidable condition] (holds : condition) :
    (require condition e : EStateM ε σ Unit) = pure () :=
  if_pos holds

theorem lift_ok_bind : ((liftM (Except.ok a : Except ε α) : EStateM ε σ α) >>= f) = f a :=
  rfl

theorem tryCatch_of_ok {handle : ε → EStateM ε σ α} (run : x s = .ok a t) :
    tryCatch x handle s = .ok a t := by
  change EStateM.tryCatch x handle s = _
  unfold EStateM.tryCatch
  rw [run]

theorem tryCatch_of_error {handle : ε → EStateM ε σ α} (run : x s = .error e t) :
    tryCatch x handle s = handle e t := by
  change EStateM.tryCatch x handle s = _
  unfold EStateM.tryCatch
  rw [run]
  rfl

/-! ### Programs that finish -/

/-- The program does not stop with an error when it is started in `s`. -/
def Finishes (x : EStateM ε σ α) (s : σ) : Prop := ∃ a t, x s = .ok a t

instance (x : EStateM ε σ α) (s : σ) : Decidable (Finishes x s) :=
  match run : x s with
  | .ok a t => .isTrue ⟨a, t, run⟩
  | .error _ _ => .isFalse (by
      rintro ⟨a, t, finished⟩
      rw [run] at finished
      cases finished)

/-- The program finishes, and what it leaves passes a test. -/
instance decidableFinishesWith (x : EStateM ε σ α) (s : σ) (p : σ → Prop) [DecidablePred p] :
    Decidable (∃ a t, x s = .ok a t ∧ p t) :=
  match run : x s with
  | .ok a t => decidable_of_iff (p t) ⟨fun holds => ⟨a, t, rfl, holds⟩, fun ⟨_, _, same, holds⟩ =>
      (EStateM.Result.ok.inj same).2 ▸ holds⟩
  | .error _ _ => .isFalse (by
      rintro ⟨a, t, finished, _⟩
      cases finished)

/-- The program finishes when it is started in `s`, and what it returns and leaves behind is as
claimed. -/
def Returns (x : EStateM ε σ α) (s : σ) (post : α → σ → Prop) : Prop :=
  ∃ a t, x s = .ok a t ∧ post a t

namespace Returns

variable {x : EStateM ε σ α} {f : α → EStateM ε σ β} {s : σ} {middle : α → σ → Prop}
  {post : β → σ → Prop}

theorem bind (first : Returns x s middle) (second : ∀ a t, middle a t → Returns (f a) t post) :
    Returns (x >>= f) s post := by
  obtain ⟨a, t, run, holds⟩ := first
  obtain ⟨b, u, later, claimed⟩ := second a t holds
  exact ⟨b, u, bind_eq_ok.mpr ⟨a, t, run, later⟩, claimed⟩

theorem after (run : x s = .ok a t) (later : Returns (f a) t post) : Returns (x >>= f) s post := by
  obtain ⟨b, u, later, holds⟩ := later
  exact ⟨b, u, bind_eq_ok.mpr ⟨a, t, run, later⟩, holds⟩

theorem done (holds : post b s) : Returns (pure b : EStateM ε σ β) s post :=
  ⟨b, s, rfl, holds⟩

theorem read {f : σ → EStateM ε σ β} (later : Returns (f s) s post) : Returns (get >>= f) s post := by
  obtain ⟨b, t, run, holds⟩ := later
  exact ⟨b, t, run, holds⟩

theorem lift {y : Except ε α} (made : y = .ok a) (later : Returns (f a) s post) :
    Returns ((liftM y : EStateM ε σ α) >>= f) s post := by
  subst made
  exact later

theorem write {change : σ → σ} {f : PUnit → EStateM ε σ β}
    (later : Returns (f ⟨⟩) (change s) post) : Returns (modify change >>= f) s post := by
  obtain ⟨b, t, run, holds⟩ := later
  exact ⟨b, t, run, holds⟩

theorem mono {other : α → σ → Prop} (returns : Returns x s middle)
    (weaker : ∀ a t, middle a t → other a t) : Returns x s other := by
  obtain ⟨a, t, run, holds⟩ := returns
  exact ⟨a, t, run, weaker a t holds⟩

/-- The rule for a loop over a list whose turns all keep an invariant. -/
theorem loop {g : α → EStateM ε σ PUnit}
    (turn : ∀ item ∈ items, ∀ s, Inv s → Returns (g item) s fun _ => Inv) (start : Inv s) :
    Returns (forM items g) s fun _ => Inv := by
  induction items generalizing s with
  | nil => exact .done start
  | cons item rest inductionHypothesis =>
    rw [List.forM_cons]
    refine (turn item List.mem_cons_self s start).bind fun _ t kept => ?_
    exact inductionHypothesis (fun other member => turn other (List.mem_cons_of_mem item member)) kept

end Returns

/-! ### Computations without a state -/

instance decidableExistsOk (x : Except ε α) (p : α → Prop) [DecidablePred p] :
    Decidable (∃ a, x = .ok a ∧ p a) :=
  match x with
  | .ok a => decidable_of_iff (p a) ⟨fun holds => ⟨a, rfl, holds⟩, fun ⟨_, same, holds⟩ =>
      Except.ok.inj same ▸ holds⟩
  | .error _ => .isFalse fun ⟨_, same, _⟩ => nomatch same

theorem except_bind_eq_ok {x : Except ε α} {f : α → Except ε β} :
    (x >>= f) = .ok b ↔ ∃ a, x = .ok a ∧ f a = .ok b := by
  cases x with
  | ok a =>
    change f a = .ok b ↔ _
    simp
  | error e =>
    change (Except.error e : Except ε β) = .ok b ↔ _
    simp

@[simp]
theorem except_pure_eq_ok {b : α} : (pure a : Except ε α) = .ok b ↔ a = b := by
  change Except.ok a = .ok b ↔ _
  rw [Except.ok.injEq]

/-- Stop a computation with `error` unless the condition holds. -/
def ensure (condition : Prop) [Decidable condition] (error : ε) : Except ε Unit :=
  if condition then .ok () else .error error

@[simp]
theorem ensure_eq_ok {condition : Prop} [Decidable condition] :
    ensure condition e = .ok u ↔ condition := by
  unfold ensure
  split <;> simp_all

/-- A check that can be skipped. -/
def unlessSkipped (skip : Bool) (check : Except ε Unit) : Except ε Unit :=
  if skip then .ok () else check

theorem unlessSkipped_eq_ok {skip : Bool} {check : Except ε Unit} :
    unlessSkipped skip check = .ok u ↔ skip = true ∨ check = .ok () := by
  unfold unlessSkipped
  split <;> simp_all

/-- Whatever the computation returns is as claimed. -/
def Ensures (post : α → Prop) (x : Except ε α) : Prop := ∀ a, x = .ok a → post a

namespace Ensures

variable {post : β → Prop}

theorem bind {x : Except ε α} {f : α → Except ε β} (later : ∀ a, Ensures post (f a)) :
    Ensures post (x >>= f) := by
  intro b made
  obtain ⟨a, _, made⟩ := except_bind_eq_ok.mp made
  exact later a b made

theorem pure (holds : post b) : Ensures post (Pure.pure b : Except ε β) := by
  intro c made
  rwa [← except_pure_eq_ok.mp made]

end Ensures

/-! ### Programs that follow a computation without a state -/

/-- Started in `s` the program follows `plan`: it finishes where the plan has a value, with what it
returns and leaves behind as claimed of that value, and stops with the plan's error otherwise. -/
def Follows {γ : Type} (x : EStateM ε σ α) (s : σ) (plan : Except ε γ)
    (post : γ → α → σ → Prop) : Prop :=
  (∀ c, plan = .ok c → Returns x s (post c)) ∧ ∀ e, plan = .error e → ∃ t, x s = .error e t

namespace Follows

variable {γ δ : Type} {x : EStateM ε σ α} {f : α → EStateM ε σ β} {s : σ} {plan : Except ε γ}
  {next : γ → Except ε δ} {middle : γ → α → σ → Prop} {post : δ → β → σ → Prop}

theorem done {d : δ} (holds : post d b s) : Follows (pure b : EStateM ε σ β) s (.ok d) post := by
  refine ⟨fun c same => ?_, fun e same => by cases same⟩
  cases same
  exact .done holds

theorem returns {d : δ} {y : EStateM ε σ β} (holds : Returns y s (post d)) :
    Follows y s (.ok d) post := by
  refine ⟨fun c same => ?_, fun e same => by cases same⟩
  cases same
  exact holds

theorem bind (first : Follows x s plan middle)
    (second : ∀ c a t, plan = .ok c → middle c a t → Follows (f a) t (next c) post) :
    Follows (x >>= f) s (plan >>= next) post := by
  cases plan with
  | error e =>
    obtain ⟨t, stopped⟩ := first.2 e rfl
    refine ⟨fun d same => (by cases same), fun e' same => ?_⟩
    cases same
    exact ⟨t, bind_of_error stopped⟩
  | ok c =>
    obtain ⟨a, t, run, holds⟩ := first.1 c rfl
    have later := second c a t rfl holds
    refine ⟨fun d same => .after run (later.1 d same), fun e same => ?_⟩
    obtain ⟨u, stopped⟩ := later.2 e same
    exact ⟨u, (bind_of_ok run).trans stopped⟩

/-- A step that the plan does not have. -/
theorem after {goal : Except ε δ} (run : x s = .ok a t) (later : Follows (f a) t goal post) :
    Follows (x >>= f) s goal post := by
  refine ⟨fun d same => .after run (later.1 d same), fun e same => ?_⟩
  obtain ⟨u, stopped⟩ := later.2 e same
  exact ⟨u, (bind_of_ok run).trans stopped⟩

theorem lift {plan : Except ε α} {next : α → Except ε δ}
    (later : ∀ a, plan = .ok a → Follows (f a) s (next a) post) :
    Follows ((liftM plan : EStateM ε σ α) >>= f) s (plan >>= next) post := by
  cases plan with
  | error e =>
    refine ⟨fun d same => (by cases same), fun e' same => ?_⟩
    cases same
    exact ⟨s, rfl⟩
  | ok a => exact later a rfl

theorem mono {other : γ → α → σ → Prop} (follows : Follows x s plan middle)
    (weaker : ∀ c a t, middle c a t → other c a t) : Follows x s plan other :=
  ⟨fun c same => (follows.1 c same).mono (weaker c), follows.2⟩

/-- The claim may use that it is about the value of the plan. -/
theorem known (follows : Follows x s plan middle) :
    Follows x s plan fun c a t => plan = .ok c ∧ middle c a t :=
  ⟨fun c same => (follows.1 c same).mono fun _ _ holds => ⟨same, holds⟩, follows.2⟩

/-- The plan goes on to compute something else from its value. -/
theorem map {g : γ → δ} {post : δ → α → σ → Prop} (follows : Follows x s plan middle)
    (each : ∀ c a t, middle c a t → post (g c) a t) :
    Follows x s (plan >>= fun c => .ok (g c)) post := by
  cases plan with
  | error e =>
    refine ⟨fun d same => (by cases same), fun e' same => ?_⟩
    cases same
    exact follows.2 e rfl
  | ok c => exact .returns ((follows.1 c rfl).mono (each c))

/-- A computation that the plan goes on with in two steps. -/
theorem lift_assoc {plan : Except ε α} {first : α → Except ε γ}
    (later : ∀ a, plan = .ok a → Follows (f a) s (first a >>= next) post) :
    Follows ((liftM plan : EStateM ε σ α) >>= f) s ((plan >>= first) >>= next) post := by
  cases plan with
  | error e =>
    refine ⟨fun d same => (by cases same), fun e' same => ?_⟩
    cases same
    exact ⟨s, rfl⟩
  | ok a => exact later a rfl

theorem discard {claim : γ → σ → Prop} (follows : Follows x s plan fun c _ t => claim c t) :
    Follows (discard x) s plan fun c _ t => claim c t := by
  have same : Functor.discard x = x >>= fun _ => pure .unit := (bind_pure_comp _ x).symm
  rw [same]
  refine ⟨fun c made => (follows.1 c made).bind fun _ _ holds => .done holds, fun e stops => ?_⟩
  obtain ⟨t, stopped⟩ := follows.2 e stops
  exact ⟨t, bind_of_error stopped⟩

/-- What the plan says of a run that has finished. -/
theorem of_ok (follows : Follows x s plan middle) (run : x s = .ok a t) :
    ∃ c, plan = .ok c ∧ middle c a t := by
  cases plan with
  | error e =>
    obtain ⟨u, stopped⟩ := follows.2 e rfl
    rw [run] at stopped
    cases stopped
  | ok c =>
    obtain ⟨b, u, finished, holds⟩ := follows.1 c rfl
    rw [run] at finished
    cases finished
    exact ⟨c, rfl, holds⟩

end Follows

/-- The lists that a computation makes for the items of a list, put together. -/
def collect {κ : Type} (plan : α → Except ε (List κ)) : List α → Except ε (List κ)
  | [] => .ok []
  | item :: rest => do
    let first ← plan item
    let later ← collect plan rest
    .ok (first ++ later)

theorem collect_of_each {κ : Type} {plan other : α → Except ε (List κ)} {made : List κ}
    (each : ∀ item ∈ items, ∀ made, plan item = .ok made → other item = .ok made)
    (collected : collect plan items = .ok made) : collect other items = .ok made := by
  induction items generalizing made with
  | nil => exact collected
  | cons item rest inductionHypothesis =>
    obtain ⟨first, madeFirst, collected⟩ := except_bind_eq_ok.mp collected
    obtain ⟨later, madeLater, same⟩ := except_bind_eq_ok.mp collected
    refine except_bind_eq_ok.mpr ⟨first, each item List.mem_cons_self first madeFirst,
      except_bind_eq_ok.mpr ⟨later, ?_, same⟩⟩
    exact inductionHypothesis (fun next member => each next (List.mem_cons_of_mem item member))
      madeLater

/-- The rule for a loop each turn of which follows a plan. -/
theorem Follows.loop {κ : Type} {g : α → EStateM ε σ PUnit} {plan : α → Except ε (List κ)}
    {Inv : List κ → σ → Prop} {made : List κ} (turn : ∀ item ∈ items, ∀ made s, Inv made s →
      Follows (g item) s (plan item) fun more _ t => Inv (made ++ more) t) (start : Inv made s) :
    Follows (forM items g) s (collect plan items) fun more _ t => Inv (made ++ more) t := by
  induction items generalizing s made with
  | nil =>
    refine .done ?_
    rw [List.append_nil]
    exact start
  | cons item rest inductionHypothesis =>
    rw [List.forM_cons]
    refine (turn item List.mem_cons_self made s start).bind fun first _ t _ kept => ?_
    refine (inductionHypothesis
      (fun other member => turn other (List.mem_cons_of_mem item member)) kept).map
      fun later _ u holds => ?_
    rw [List.append_assoc] at holds
    exact holds

/-! ### Relations that every step of a program respects -/

/-- Whenever the program finishes, the state before is related to the state after. The instances
follow the way a program is built, so that a relation need only be shown of its smallest parts. -/
class Respects (R : σ → σ → Prop) (x : EStateM ε σ α) : Prop where
  related : ∀ s a t, x s = .ok a t → R s t

/-- Both states look alike through `view`. -/
def Same {ν : Type} (view : σ → ν) (s t : σ) : Prop := view t = view s

instance {ν : Type} (view : σ → ν) : Std.Refl (Same view) := ⟨fun _ => rfl⟩

instance {ν : Type} (view : σ → ν) : IsTrans σ (Same view) :=
  ⟨fun _ _ _ first second => second.trans first⟩

theorem viewed {ν : Type} {view : σ → ν} [kept : Respects (Same view) x] (finished : x s = .ok a t) :
    view t = view s :=
  kept.related s a t finished

/-- What holds of the state before holds of the state after. -/
def Keeping (Inv : σ → Prop) (s t : σ) : Prop := Inv s → Inv t

instance (Inv : σ → Prop) : Std.Refl (Keeping Inv) := ⟨fun _ => id⟩

instance (Inv : σ → Prop) : IsTrans σ (Keeping Inv) :=
  ⟨fun _ _ _ first second => second ∘ first⟩

theorem keeps [keeping : Respects (Keeping Inv) x] (finished : x s = .ok a t) (holds : Inv s) :
    Inv t :=
  keeping.related s a t finished holds

/-- An invariant that holds before holds after, and then the states are related. -/
def Under (Inv : σ → Prop) (R : σ → σ → Prop) (s t : σ) : Prop := Inv s → Inv t ∧ R s t

instance (Inv : σ → Prop) (R : σ → σ → Prop) [Std.Refl R] : Std.Refl (Under Inv R) :=
  ⟨fun s holds => ⟨holds, refl s⟩⟩

instance (Inv : σ → Prop) (R : σ → σ → Prop) [IsTrans σ R] : IsTrans σ (Under Inv R) where
  trans s u t first second holds := by
    obtain ⟨middle, one⟩ := first holds
    obtain ⟨last, two⟩ := second middle
    exact ⟨last, IsTrans.trans s u t one two⟩

/-- A program that respects equality only looks at the state. -/
theorem unmoved [reads : Respects Eq x] (finished : x s = .ok a t) : s = t :=
  reads.related s a t finished

section Respects

variable {R : σ → σ → Prop} [Std.Refl R]

instance Respects.pure (a : α) : Respects R (pure a : EStateM ε σ α) where
  related s b t finished := by
    obtain ⟨_, rfl⟩ := pure_eq_ok.mp finished
    exact refl s

omit [Std.Refl R] in
instance Respects.throw (e : ε) : Respects R (throw e : EStateM ε σ α) where
  related _ _ _ finished := (throw_eq_ok.mp finished).elim

instance Respects.get : Respects R (get : EStateM ε σ σ) where
  related s b t finished := by
    obtain ⟨_, rfl⟩ := get_eq_ok.mp finished
    exact refl s

instance Respects.lift (x : Except ε α) : Respects R (liftM x : EStateM ε σ α) where
  related s b t finished := by
    obtain ⟨_, rfl⟩ := lift_eq_ok.mp finished
    exact refl s

instance Respects.require (condition : Prop) [Decidable condition] (e : ε) :
    Respects R (require condition e : EStateM ε σ Unit) where
  related s b t finished := by
    obtain ⟨_, rfl⟩ := require_eq_ok.mp finished
    exact refl s

omit [Std.Refl R] in
theorem Respects.modify {f : σ → σ} (each : ∀ s, R s (f s)) :
    Respects R (modify f : EStateM ε σ PUnit) where
  related s b t finished := by
    obtain rfl := modify_eq_ok.mp finished
    exact each s

omit [Std.Refl R] in
instance Respects.bind [IsTrans σ R] [first : Respects R x] [rest : ∀ a, Respects R (f a)] :
    Respects R (x >>= f) where
  related s b t finished := by
    obtain ⟨a, u, ran, finished⟩ := bind_eq_ok.mp finished
    exact IsTrans.trans s u t (first.related s a u ran) ((rest a).related u b t finished)

omit [Std.Refl R] in
/-- The rule for a sequence, with its parts to be given. -/
theorem Respects.step [IsTrans σ R] (first : Respects R x) (rest : ∀ a, Respects R (f a)) :
    Respects R (x >>= f) :=
  inferInstance

omit [Std.Refl R] in
instance Respects.discard [inner : Respects R x] :
    Respects R (discard x) where
  related s b t finished := by
    obtain ⟨a, ran⟩ := discard_eq_ok.mp finished
    exact inner.related s a t ran

instance Respects.whenever (condition : Prop) [Decidable condition] {x : EStateM ε σ Unit}
    [body : Respects R x] : Respects R (whenever condition x) where
  related s b t finished := by
    rcases whenever_eq_ok.mp finished with ⟨_, ran⟩ | ⟨_, rfl⟩
    · exact body.related s () t ran
    · exact refl s

omit [Std.Refl R] in
instance Respects.ite (condition : Prop) [Decidable condition] {x y : EStateM ε σ α}
    [positive : Respects R x] [negative : Respects R y] :
    Respects R (if condition then x else y) := by
  split
  · exact positive
  · exact negative

instance Respects.forM [IsTrans σ R] {f : α → EStateM ε σ PUnit}
    [each : ∀ item, Respects R (f item)] : Respects R (forM items f) := by
  induction items with
  | nil => exact Respects.pure _
  | cons item rest inductionHypothesis =>
    rw [List.forM_cons]
    infer_instance

omit [Std.Refl R] in
/-- A program that respects a relation respects every weaker one. -/
theorem Respects.mono {S : σ → σ → Prop} (respects : Respects R x) (weaker : ∀ s t, R s t → S s t) :
    Respects S x where
  related s a t finished := weaker s t (respects.related s a t finished)

omit [Std.Refl R] in
/-- What follows a check may rely on it. -/
theorem Respects.checked {condition : Prop} [Decidable condition] {f : Unit → EStateM ε σ β}
    (rest : condition → Respects R (f ())) :
    Respects R (Program.require condition e >>= f) where
  related s b t finished := by
    obtain ⟨_, _, required, finished⟩ := bind_eq_ok.mp finished
    obtain ⟨holds, rfl⟩ := require_eq_ok.mp required
    exact (rest holds).related s b t finished

/-- What is done under a condition may rely on it. -/
theorem Respects.guarded {condition : Prop} [Decidable condition] {x : EStateM ε σ Unit}
    (body : condition → Respects R x) : Respects R (Program.whenever condition x) where
  related s b t finished := by
    rcases whenever_eq_ok.mp finished with ⟨holds, ran⟩ | ⟨_, rfl⟩
    · exact (body holds).related s () t ran
    · exact refl s

omit [Std.Refl R] in
/-- What follows a computation may rely on its result. -/
theorem Respects.computed {x : Except ε α} (rest : ∀ a, x = .ok a → Respects R (f a)) :
    Respects R (liftM x >>= f) where
  related s b t finished := by
    obtain ⟨a, _, lifted, finished⟩ := bind_eq_ok.mp finished
    obtain ⟨made, rfl⟩ := lift_eq_ok.mp lifted
    exact (rest a made).related s b t finished

/-- What follows a look at the state may rely on its invariant. -/
theorem Respects.seen {f : σ → EStateM ε σ β} (rest : ∀ s, Inv s → Respects (Keeping Inv) (f s)) :
    Respects (Keeping Inv) (MonadState.get >>= f) where
  related s b t finished holds := by
    replace finished := get_bind_eq_ok.mp finished
    exact (rest s holds).related s b t finished holds

/-- The rule for a loop over items that are known to be good. -/
theorem respects_forM_mem [IsTrans σ R] {f : α → EStateM ε σ PUnit}
    (each : ∀ item ∈ items, Respects R (f item)) : Respects R (forM items f) := by
  induction items with
  | nil => exact Respects.pure _
  | cons item rest inductionHypothesis =>
    rw [List.forM_cons]
    exact .step (each item List.mem_cons_self) fun _ =>
      inductionHypothesis fun other member => each other (List.mem_cons_of_mem item member)

/-- The rule for a loop over a list: what is left of the list is related to the state, each turn
respects the relation. -/
theorem forM_related [IsTrans σ R] {f : α → EStateM ε σ PUnit} {Left : List α → σ → Prop}
    (turn : ∀ item rest s t u, Left (item :: rest) s → f item s = .ok u t →
      Left rest t ∧ R s t)
    {items : List α} {s t : σ} {u : PUnit} (start : Left items s)
    (run : forM items f s = .ok u t) : Left [] t ∧ R s t := by
  induction items generalizing s with
  | nil =>
    obtain ⟨_, rfl⟩ := pure_eq_ok.mp run
    exact ⟨start, refl s⟩
  | cons item rest inductionHypothesis =>
    rw [List.forM_cons] at run
    obtain ⟨_, middle, turned, looped⟩ := bind_eq_ok.mp run
    obtain ⟨left, first⟩ := turn item rest s middle _ start turned
    obtain ⟨last, second⟩ := inductionHypothesis left looped
    exact ⟨last, IsTrans.trans s middle t first second⟩

/-- A loop that finishes has had a good turn for each item. -/
theorem forM_each {f : α → EStateM ε σ PUnit} {Good : α → Prop} {u : PUnit}
    (turn : ∀ item ∈ items, ∀ s t u, Inv s → f item s = .ok u t → Inv t ∧ Good item) (start : Inv s)
    (run : forM items f s = .ok u t) : Inv t ∧ ∀ item ∈ items, Good item := by
  induction items generalizing s with
  | nil =>
    obtain ⟨_, rfl⟩ := pure_eq_ok.mp run
    exact ⟨start, nofun⟩
  | cons item rest inductionHypothesis =>
    rw [List.forM_cons] at run
    obtain ⟨_, middle, turned, looped⟩ := bind_eq_ok.mp run
    obtain ⟨kept, good⟩ := turn item List.mem_cons_self s middle _ start turned
    obtain ⟨last, others⟩ := inductionHypothesis
      (fun other member => turn other (List.mem_cons_of_mem item member)) kept looped
    exact ⟨last, List.forall_mem_cons.mpr ⟨good, others⟩⟩

end Respects

end Program
