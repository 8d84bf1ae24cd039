import Mathlib.Logic.Basic

/-!
# Programs with state and exceptions

A `Program ε σ α` runs on a state, which it leaves behind also when it raises, and returns a value or raises an
exception. `Triple` says what holds after a run that returns and after one that raises; there is one rule for each way
in which programs are put together. `Keeps` is the special case of an invariant, which holds after both.
-/

namespace LlmStore.Lib

universe u v w

/-- Programs over states `σ` that may raise an `ε`. -/
structure Program (ε : Type u) (σ : Type v) (α : Type w) where
  exec : σ → Except ε α × σ

namespace Program

variable {ε : Type u} {σ : Type v} {α β : Type w}

instance : Monad (Program ε σ) where
  pure a := ⟨fun s => (.ok a, s)⟩
  bind x f := ⟨fun s => match x.exec s with
    | (.ok a, t) => (f a).exec t
    | (.error e, t) => (.error e, t)⟩

def raise (e : ε) : Program ε σ α := ⟨fun s => (.error e, s)⟩

/-- The state, read and replaced in one step. -/
def modifyGet (f : σ → α × σ) : Program ε σ α := ⟨fun s => (.ok (f s).1, (f s).2)⟩

def modify (f : σ → σ) : Program ε σ Unit := modifyGet fun s => ((), f s)

/-- `try: x except: handler`. The handler raises again what it does not handle. -/
def tryExcept (x : Program ε σ α) (handler : ε → Program ε σ α) : Program ε σ α :=
  ⟨fun s => match x.exec s with
    | (.ok a, t) => (.ok a, t)
    | (.error e, t) => (handler e).exec t⟩

/-- `try: x finally: y`. An exception of `y` takes the place of the outcome of `x`. -/
def tryFinally (x : Program ε σ α) (y : Program ε σ Unit) : Program ε σ α :=
  ⟨fun s => match x.exec s with
    | (r, t) => match y.exec t with
      | (.ok (), u) => (r, u)
      | (.error e, u) => (.error e, u)⟩

theorem exec_bind_ok {x : Program ε σ α} {f : α → Program ε σ β} {s t : σ} {a : α} (h : x.exec s = (.ok a, t)) :
    (x >>= f).exec s = (f a).exec t := by
  show (match x.exec s with
    | (.ok a, t) => (f a).exec t
    | (.error e, t) => (.error e, t)) = _
  rw [h]

theorem exec_bind_error {x : Program ε σ α} {f : α → Program ε σ β} {s t : σ} {e : ε}
    (h : x.exec s = (.error e, t)) : (x >>= f).exec s = (.error e, t) := by
  show (match x.exec s with
    | (.ok a, t) => (f a).exec t
    | (.error e, t) => (.error e, t)) = _
  rw [h]

/-- A program that returns has run its first part and then its second. -/
theorem of_exec_bind_ok {x : Program ε σ α} {f : α → Program ε σ β} {s : σ} {b : β}
    (h : ((x >>= f).exec s).1 = .ok b) : ∃ a t, x.exec s = (.ok a, t) ∧ ((f a).exec t).1 = .ok b := by
  rcases hr : x.exec s with ⟨e | a, t⟩
  · rw [exec_bind_error hr] at h
    cases h
  · rw [exec_bind_ok hr] at h
    exact ⟨a, t, rfl, h⟩

end Program

section Triple

variable {ε : Type u} {σ : Type v} {α β : Type w}

/-- What holds after a run, given what holds after a return and after an exception. -/
def Outcome (Q : α → σ → Prop) (E : ε → σ → Prop) : Except ε α × σ → Prop
  | (.ok a, t) => Q a t
  | (.error e, t) => E e t

/-- From a state with `P`, the program returns a value with `Q` or raises an exception with `E`. -/
def Triple (P : σ → Prop) (x : Program ε σ α) (Q : α → σ → Prop) (E : ε → σ → Prop) : Prop :=
  ∀ s, P s → Outcome Q E (x.exec s)

variable {P P' : σ → Prop} {Q Q' : α → σ → Prop} {E E' : ε → σ → Prop} {x : Program ε σ α}

theorem Triple.conseq (h : Triple P x Q E) (hP : ∀ s, P' s → P s) (hQ : ∀ a s, Q a s → Q' a s)
    (hE : ∀ e s, E e s → E' e s) : Triple P' x Q' E' := by
  intro s hs
  have hx := h s (hP s hs)
  rcases hr : x.exec s with ⟨_ | a, t⟩ <;> rw [hr] at hx
  · exact hE _ _ hx
  · exact hQ _ _ hx

theorem Triple.pre (h : Triple P x Q E) (hP : ∀ s, P' s → P s) : Triple P' x Q E :=
  h.conseq hP (fun _ _ hq => hq) fun _ _ he => he

/-- A program that does not raise returns. -/
theorem Triple.returns (h : Triple P x Q fun _ _ => False) {s : σ} (hs : P s) :
    ∃ a t, x.exec s = (.ok a, t) ∧ Q a t := by
  have hx := h s hs
  rcases hr : x.exec s with ⟨_ | a, t⟩ <;> rw [hr] at hx
  · exact hx.elim
  · exact ⟨a, t, rfl, hx⟩

theorem triple_pure {a : α} (h : ∀ s, P s → Q a s) : Triple P (pure a) Q E := h

theorem triple_raise {e : ε} (h : ∀ s, P s → E e s) : Triple P (Program.raise e) Q E := h

theorem triple_modifyGet {f : σ → α × σ} (h : ∀ s, P s → Q (f s).1 (f s).2) :
    Triple P (Program.modifyGet f) Q E := h

theorem triple_modify {f : σ → σ} {Q : Unit → σ → Prop} (h : ∀ s, P s → Q () (f s)) :
    Triple P (Program.modify f) Q E := h

theorem triple_bind {f : α → Program ε σ β} {R : β → σ → Prop} (h : Triple P x Q E)
    (hf : ∀ a, Triple (Q a) (f a) R E) : Triple P (x >>= f) R E := by
  intro s hs
  have hx := h s hs
  change Outcome R E (match x.exec s with
    | (.ok a, t) => (f a).exec t
    | (.error e, t) => (.error e, t))
  rcases hr : x.exec s with ⟨_ | a, t⟩ <;> rw [hr] at hx
  · exact hx
  · exact hf a t hx

theorem triple_tryExcept {handler : ε → Program ε σ α} (h : Triple P x Q E)
    (hh : ∀ e, Triple (E e) (handler e) Q E') : Triple P (Program.tryExcept x handler) Q E' := by
  intro s hs
  have hx := h s hs
  unfold Program.tryExcept
  rcases hr : x.exec s with ⟨e | a, t⟩ <;> rw [hr] at hx
  · simp only [hr]
    exact hh e t hx
  · simp only [hr]
    exact hx

/-- The block `y` runs after a return, from `Q`, and after an exception, from `E`. -/
theorem triple_tryFinally {y : Program ε σ Unit} (h : Triple P x Q E)
    (hret : ∀ a, Triple (Q a) y (fun _ => Q' a) E') (hexc : ∀ e, Triple (E e) y (fun _ => E' e) E') :
    Triple P (Program.tryFinally x y) Q' E' := by
  intro s hs
  have hx := h s hs
  unfold Program.tryFinally
  rcases hr : x.exec s with ⟨e | a, t⟩ <;> rw [hr] at hx
  · have hy := hexc e t hx
    rcases hr' : y.exec t with ⟨e' | u, t'⟩ <;> rw [hr'] at hy <;> simp only [hr, hr'] <;> exact hy
  · have hy := hret a t hx
    rcases hr' : y.exec t with ⟨e' | u, t'⟩ <;> rw [hr'] at hy <;> simp only [hr, hr'] <;> exact hy

end Triple

/-! ## Invariants of programs -/

section Keeps

variable {ε : Type u} {σ : Type v} {α β : Type w}

/-- The program keeps `I`, whether it returns or raises, and returns only values with `R` and raises only exceptions
with `F`. -/
def Keeps (I : σ → Prop) (R : α → Prop) (F : ε → Prop) (x : Program ε σ α) : Prop :=
  Triple I x (fun a s => I s ∧ R a) fun e s => I s ∧ F e

variable {I : σ → Prop} {R : α → Prop} {F : ε → Prop} {x : Program ε σ α}

theorem keeps_pure {a : α} (ha : R a) : Keeps I R F (pure a : Program ε σ α) := triple_pure fun _ hs => ⟨hs, ha⟩

theorem keeps_raise {e : ε} (he : F e) : Keeps I R F (Program.raise e : Program ε σ α) :=
  triple_raise fun _ hs => ⟨hs, he⟩

theorem keeps_modifyGet {f : σ → α × σ} (h : ∀ s, I s → I (f s).2 ∧ R (f s).1) :
    Keeps I R F (Program.modifyGet f) := triple_modifyGet h

theorem Keeps.bind {f : α → Program ε σ β} {R' : β → Prop} (hx : Keeps I R F x) (hf : ∀ a, R a → Keeps I R' F (f a)) :
    Keeps I R' F (x >>= f) :=
  triple_bind hx fun a s hs => hf a hs.2 s hs.1

theorem Keeps.mono {R' : α → Prop} {F' : ε → Prop} (hx : Keeps I R F x) (hR : ∀ a, R a → R' a) (hF : ∀ e, F e → F' e) :
    Keeps I R' F' x :=
  hx.conseq (fun _ h => h) (fun _ _ h => ⟨h.1, hR _ h.2⟩) fun _ _ h => ⟨h.1, hF _ h.2⟩

theorem Keeps.tryExcept {handler : ε → Program ε σ α} (hx : Keeps I R F x)
    (hh : ∀ e, F e → Keeps I R F (handler e)) : Keeps I R F (Program.tryExcept x handler) :=
  triple_tryExcept hx fun e s hs => hh e hs.2 s hs.1

theorem Keeps.tryFinally {R' : Unit → Prop} {y : Program ε σ Unit} (hx : Keeps I R F x) (hy : Keeps I R' F y) :
    Keeps I R F (Program.tryFinally x y) :=
  triple_tryFinally hx
    (fun _ s hs => hy.conseq (fun _ h => h) (fun _ _ h => ⟨h.1, hs.2⟩) (fun _ _ h => h) s hs.1)
    fun _ s hs => hy.conseq (fun _ h => h) (fun _ _ h => ⟨h.1, hs.2⟩) (fun _ _ h => h) s hs.1

end Keeps

/-! ## Programs that agree -/

section AgreeFrom

variable {ε : Type u} {σ : Type v} {α β : Type w}

/-- From `s` the two programs do the same, and `P` holds of the state after them. -/
def AgreeFrom (P : σ → Prop) (x y : Program ε σ α) (s : σ) : Prop := x.exec s = y.exec s ∧ P (x.exec s).2

variable {P : σ → Prop} {s : σ} {x y : Program ε σ α} {f g : α → Program ε σ β}

/-- What a program does, it does. -/
theorem agreeFrom_of_triple {I : σ → Prop} (h : Triple I x (fun _ => P) fun _ => P) (hs : I s) : AgreeFrom P x x s := by
  refine ⟨rfl, ?_⟩
  have hx := h s hs
  rcases hr : x.exec s with ⟨_ | a, t⟩ <;> rw [hr] at hx <;> exact hx

/-- The same first part, after which the programs agree. -/
theorem agreeFrom_step {I : σ → Prop} {Q : α → σ → Prop} (h : Triple I x Q fun _ => P) (hs : I s)
    (hf : ∀ a t, Q a t → AgreeFrom P (f a) (g a) t) : AgreeFrom P (x >>= f) (x >>= g) s := by
  have hx := h s hs
  rcases hr : x.exec s with ⟨e | a, t⟩ <;> rw [hr] at hx
  · refine ⟨(Program.exec_bind_error hr).trans (Program.exec_bind_error hr).symm, ?_⟩
    rw [Program.exec_bind_error hr]
    exact hx
  · obtain ⟨heq, hP⟩ := hf a t hx
    refine ⟨(Program.exec_bind_ok hr).trans (heq.trans (Program.exec_bind_ok hr).symm), ?_⟩
    rw [Program.exec_bind_ok hr]
    exact hP

/-- Programs whose first parts agree, and whose second parts agree wherever the first ones may end. -/
theorem AgreeFrom.bind (h : AgreeFrom P x y s) (hf : ∀ a t, P t → AgreeFrom P (f a) (g a) t) :
    AgreeFrom P (x >>= f) (y >>= g) s := by
  obtain ⟨heq, hP⟩ := h
  rcases hr : x.exec s with ⟨e | a, t⟩ <;> rw [hr] at heq hP
  · refine ⟨(Program.exec_bind_error hr).trans (Program.exec_bind_error heq.symm).symm, ?_⟩
    rw [Program.exec_bind_error hr]
    exact hP
  · obtain ⟨hrest, hP'⟩ := hf a t hP
    refine ⟨(Program.exec_bind_ok hr).trans (hrest.trans (Program.exec_bind_ok heq.symm).symm), ?_⟩
    rw [Program.exec_bind_ok hr]
    exact hP'

end AgreeFrom

/-! ## Families of invariants -/

section KeepsAll

variable {ε : Type u} {σ : Type v} {α β : Type w} {ι : Sort*}

/-- The program keeps every invariant of the family. -/
def KeepsAll (I : ι → σ → Prop) (R : α → Prop) (F : ε → Prop) (x : Program ε σ α) : Prop := ∀ i, Keeps (I i) R F x

variable {I : ι → σ → Prop} {R : α → Prop} {F : ε → Prop} {x : Program ε σ α}

theorem keepsAll_pure {a : α} (ha : R a) : KeepsAll I R F (pure a : Program ε σ α) := fun _ => keeps_pure ha

theorem keepsAll_raise {e : ε} (he : F e) : KeepsAll I R F (Program.raise e : Program ε σ α) := fun _ => keeps_raise he

theorem keepsAll_modifyGet {f : σ → α × σ} (h : ∀ i s, I i s → I i (f s).2 ∧ R (f s).1) :
    KeepsAll I R F (Program.modifyGet f) := fun i => keeps_modifyGet (h i)

theorem KeepsAll.bind {f : α → Program ε σ β} {R' : β → Prop} (hx : KeepsAll I R F x)
    (hf : ∀ a, R a → KeepsAll I R' F (f a)) : KeepsAll I R' F (x >>= f) := fun i =>
  (hx i).bind fun a ha => hf a ha i

theorem KeepsAll.mono {R' : α → Prop} {F' : ε → Prop} (hx : KeepsAll I R F x) (hR : ∀ a, R a → R' a)
    (hF : ∀ e, F e → F' e) : KeepsAll I R' F' x := fun i => (hx i).mono hR hF

theorem KeepsAll.ite {p : Prop} [Decidable p] {y : Program ε σ α} (hx : KeepsAll I R F x) (hy : KeepsAll I R F y) :
    KeepsAll I R F (if p then x else y) := by
  split
  · exact hx
  · exact hy

theorem KeepsAll.tryExcept {handler : ε → Program ε σ α} (hx : KeepsAll I R F x)
    (hh : ∀ e, F e → KeepsAll I R F (handler e)) : KeepsAll I R F (Program.tryExcept x handler) := fun i =>
  (hx i).tryExcept fun e he => hh e he i

theorem KeepsAll.tryFinally {R' : Unit → Prop} {y : Program ε σ Unit} (hx : KeepsAll I R F x)
    (hy : KeepsAll I R' F y) : KeepsAll I R F (Program.tryFinally x y) := fun i => (hx i).tryFinally (hy i)

end KeepsAll

end LlmStore.Lib
