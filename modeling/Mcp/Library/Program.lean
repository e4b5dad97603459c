import Mathlib.Data.Nat.Notation
import Mathlib.Logic.Function.Basic
import Mcp.Library.Transition

/-! Programs over atomic operations, and threads that run them against a shared state. -/
namespace Threads

open Transition

/-- A program that performs operations; `o` is answered with an `Ans o`. -/
inductive Program (Op : Type) (Ans : Op → Type) (α : Type) where
  | done (a : α)
  | perform (o : Op) (next : Ans o → Program Op Ans α)

namespace Program

variable {Op : Type} {Ans : Op → Type} {α β : Type}

def bind : Program Op Ans α → (α → Program Op Ans β) → Program Op Ans β
  | .done a, f => f a
  | .perform o next, f => .perform o fun x => (next x).bind f

instance : Monad (Program Op Ans) where
  pure := .done
  bind := bind

theorem bind_done (p : Program Op Ans α) : p.bind .done = p := by
  induction p with
  | done a => rfl
  | perform o next ih => exact congrArg (perform o) (funext ih)

theorem bind_bind {γ : Type} (p : Program Op Ans α) (f : α → Program Op Ans β)
    (g : β → Program Op Ans γ) : (p.bind f).bind g = p.bind fun a => (f a).bind g := by
  induction p with
  | done a => rfl
  | perform o next ih => exact congrArg (perform o) (funext ih)

instance : LawfulMonad (Program Op Ans) :=
  LawfulMonad.mk' _ bind_done (fun _ _ => rfl) bind_bind

/-- One operation. -/
def call (o : Op) : Program Op Ans (Ans o) := .perform o .done

/-- What a program comes to when the operations have fixed answers; none if it needs one that has
no answer. -/
def eval (answer : ∀ o, Option (Ans o)) : Program Op Ans α → Option α
  | .done a => some a
  | .perform o next => (answer o).bind fun x => (next x).eval answer

/-- Every operation the program may perform satisfies `P`. -/
def Only (P : Op → Prop) : Program Op Ans α → Prop
  | .done _ => True
  | .perform o next => P o ∧ ∀ x, (next x).Only P

/-- Every operation the program may come to satisfies `P` together with what follows it. -/
def Always (P : (o : Op) → (Ans o → Program Op Ans α) → Prop) : Program Op Ans α → Prop
  | .done _ => True
  | .perform o next => P o next ∧ ∀ x, (next x).Always P

/-- Until an answer has opened the gate, every operation the program performs is a safe one. -/
def Guarded (opens : (o : Op) → Ans o → Prop) (safe : Op → Prop) : Program Op Ans α → Prop
  | .done _ => True
  | .perform o next => safe o ∧ ∀ x, opens o x ∨ (next x).Guarded opens safe

theorem only_mono {P Q : Op → Prop} (h : ∀ o, P o → Q o) {p : Program Op Ans α}
    (hp : p.Only P) : p.Only Q := by
  induction p with
  | done a => trivial
  | perform o next ih => exact ⟨h o hp.1, fun x => ih x (hp.2 x)⟩

theorem only_bind {P : Op → Prop} {p : Program Op Ans α} {f : α → Program Op Ans β}
    (hp : p.Only P) (hf : ∀ a, (f a).Only P) : (p.bind f).Only P := by
  induction p with
  | done a => exact hf a
  | perform o next ih => exact ⟨hp.1, fun x => ih x (hp.2 x)⟩

theorem guarded_bind {opens : (o : Op) → Ans o → Prop} {safe : Op → Prop} {p : Program Op Ans α}
    {f : α → Program Op Ans β} (hp : p.Guarded opens safe) (hf : ∀ a, (f a).Guarded opens safe) :
    (p.bind f).Guarded opens safe := by
  induction p with
  | done a => exact hf a
  | perform o next ih =>
    refine ⟨hp.1, fun x => ?_⟩
    rcases hp.2 x with hopen | hnext
    · exact .inl hopen
    · exact .inr (ih x hnext)

theorem guarded_of_only {opens : (o : Op) → Ans o → Prop} {safe : Op → Prop}
    {p : Program Op Ans α} (hp : p.Only safe) : p.Guarded opens safe := by
  induction p with
  | done a => trivial
  | perform o next ih => exact ⟨hp.1, fun x => .inr (ih x (hp.2 x))⟩

/-- Nothing is asked of the operations of the first part. -/
theorem always_bind {P : (o : Op) → (Ans o → Program Op Ans β) → Prop} {plain : Op → Prop}
    (h : ∀ o next, plain o → P o next) {p : Program Op Ans α} {f : α → Program Op Ans β}
    (hp : p.Only plain) (hf : ∀ a, (f a).Always P) : (p.bind f).Always P := by
  induction p with
  | done a => exact hf a
  | perform o next ih => exact ⟨h o _ hp.1, fun x => ih x (hp.2 x)⟩

section Throwing

variable {ε : Type} {x : ExceptT ε (Program Op Ans) α} {f : α → ExceptT ε (Program Op Ans) β}

/-- The same for a program that ends when its first part throws. -/
theorem always_bindExcept
    {P : (o : Op) → (Ans o → Program Op Ans (Except ε β)) → Prop} {plain : Op → Prop}
    (h : ∀ o next, plain o → P o next) (hx : x.run.Only plain) (hf : ∀ a, (f a).run.Always P) :
    (x >>= f).run.Always P := by
  refine always_bind h hx ?_
  intro r
  cases r with
  | ok a => exact hf a
  | error e => trivial

end Throwing

section Serves

variable {σ : Type} {perform : σ → (o : Op) → Ans o → σ → Prop} {s u v : σ} {a : α}

/-- The program runs from the first state to the second without interruption, and comes to `a`. -/
inductive Serves (perform : σ → (o : Op) → Ans o → σ → Prop) :
    σ → Program Op Ans α → σ → α → Prop where
  | done {s : σ} {a : α} : Serves perform s (.done a) s a
  | perform {s u v : σ} {o : Op} {x : Ans o} {next a} : perform s o x u →
      Serves perform u (next x) v a → Serves perform s (.perform o next) v a

theorem serves_done {b : α} : Serves perform s (.done a) v b ↔ v = s ∧ b = a := by
  constructor
  · rintro ⟨⟩
    exact ⟨rfl, rfl⟩
  · rintro ⟨rfl, rfl⟩
    exact .done

theorem serves_perform {o : Op} {next : Ans o → Program Op Ans α} :
    Serves perform s (.perform o next) v a ↔
      ∃ x u, perform s o x u ∧ Serves perform u (next x) v a := by
  constructor
  · rintro ⟨⟩
    exact ⟨_, _, by assumption, by assumption⟩
  · rintro ⟨x, u, hx, hn⟩
    exact .perform hx hn

end Serves

section Embed

variable {Op' : Type} {Ans' : Op' → Type}

/-- A program that uses one half of the operations. -/
def embed : Program Op Ans α → Program (Op ⊕ Op') (Sum.elim Ans Ans') α
  | .done a => .done a
  | .perform o next => .perform (.inl o) fun x => (next x).embed

theorem embed_bind (p : Program Op Ans α) (f : α → Program Op Ans β) :
    (p.bind f).embed = (p.embed : Program (Op ⊕ Op') (Sum.elim Ans Ans') α).bind fun a =>
      (f a).embed := by
  induction p with
  | done a => rfl
  | perform o next ih => exact congrArg (perform (Sum.inl o)) (funext ih)

theorem only_embed {P : Op ⊕ Op' → Prop} (h : ∀ o, P (.inl o)) (p : Program Op Ans α) :
    (p.embed : Program (Op ⊕ Op') (Sum.elim Ans Ans') α).Only P := by
  induction p with
  | done a => trivial
  | perform o next ih => exact ⟨h o, ih⟩

/-- A program that uses one half of the operations, and what is done with its result. -/
theorem always_embed {P : (o : Op) → (Ans o → Program Op Ans α) → Prop}
    {Q : (o : Op ⊕ Op') → (Sum.elim Ans Ans' o → Program (Op ⊕ Op') (Sum.elim Ans Ans') β) → Prop}
    {f : α → Program (Op ⊕ Op') (Sum.elim Ans Ans') β}
    (h : ∀ o next, P o next → Q (.inl o) fun x => (next x).embed.bind f)
    (hf : ∀ a, (f a).Always Q) {p : Program Op Ans α} (hp : p.Always P) :
    (p.embed.bind f).Always Q := by
  induction p with
  | done a => exact hf a
  | perform o next ih => exact ⟨h o next hp.1, fun x => ih x (hp.2 x)⟩

theorem eval_embed (answer : ∀ o, Option (Sum.elim Ans Ans' o)) (p : Program Op Ans α) :
    p.embed.eval answer = p.eval fun o => answer (.inl o) := by
  induction p with
  | done a => rfl
  | perform o next ih => exact congrArg (answer (.inl o)).bind (funext ih)

theorem guarded_embed {opens : (o : Op ⊕ Op') → Sum.elim Ans Ans' o → Prop} {safe : Op ⊕ Op' → Prop}
    {p : Program Op Ans α} (hp : p.Guarded (fun o => opens (.inl o)) fun o => safe (.inl o)) :
    (p.embed : Program (Op ⊕ Op') (Sum.elim Ans Ans') α).Guarded opens safe := by
  induction p with
  | done a => trivial
  | perform o next ih =>
    refine ⟨hp.1, fun x => ?_⟩
    rcases hp.2 x with hopen | hnext
    · exact .inl hopen
    · exact .inr (ih x hnext)

end Embed

end Program

/-- What threads can do to the shared state: come into being with a program, perform an
operation, and end; and what happens to it from outside. -/
structure Rules (σ Op : Type) (Ans : Op → Type) (α : Type) where
  start : σ → ℕ → Program Op Ans α → σ → Prop
  perform : σ → ℕ → (o : Op) → Ans o → σ → Prop
  finish : σ → ℕ → α → σ → Prop
  other : σ → σ → Prop

/-- A shared state and the programs its threads have yet to run. -/
structure Pool (σ Op : Type) (Ans : Op → Type) (α : Type) where
  shared : σ
  thread : ℕ → Option (Program Op Ans α)

inductive Action where
  | start (t : ℕ)
  | perform (t : ℕ)
  | finish (t : ℕ)
  | other

variable {σ Op : Type} {Ans : Op → Type} {α : Type} {R : Rules σ Op Ans α}
  {init : σ → Prop} {ok : Pool σ Op Ans α → Action → Prop}

inductive Step (R : Rules σ Op Ans α) : Pool σ Op Ans α → Action → Pool σ Op Ans α → Prop where
  | start {s : Pool σ Op Ans α} {t p u} : s.thread t = none → R.start s.shared t p u →
      Step R s (.start t) ⟨u, Function.update s.thread t (some p)⟩
  | perform {s : Pool σ Op Ans α} {t o next x u} : s.thread t = some (.perform o next) →
      R.perform s.shared t o x u →
      Step R s (.perform t) ⟨u, Function.update s.thread t (some (next x))⟩
  | finish {s : Pool σ Op Ans α} {t a u} : s.thread t = some (.done a) → R.finish s.shared t a u →
      Step R s (.finish t) ⟨u, Function.update s.thread t none⟩
  | other {s : Pool σ Op Ans α} {u} : R.other s.shared u → Step R s .other ⟨u, s.thread⟩

/-- The threads of a pool, from a state with none. -/
def machine (R : Rules σ Op Ans α) (init : σ → Prop) : System (Pool σ Op Ans α) Action where
  Initial s := init s.shared ∧ ∀ t, s.thread t = none
  Step := Step R

/-- A property of the shared state together with one of each thread, both kept by every rule;
what one thread does must leave the others' properties alone. -/
structure Inductive (R : Rules σ Op Ans α) (init : σ → Prop) (I : σ → Prop)
    (T : σ → ℕ → Program Op Ans α → Prop) : Prop where
  init : ∀ s, init s → I s
  start : ∀ s t p u, I s → R.start s t p u →
    I u ∧ T u t p ∧ ∀ v q, v ≠ t → T s v q → T u v q
  perform : ∀ s t o next x u, I s → T s t (.perform o next) → R.perform s t o x u →
    I u ∧ T u t (next x) ∧ ∀ v q, v ≠ t → T s v q → T u v q
  finish : ∀ s t a u, I s → T s t (.done a) → R.finish s t a u →
    I u ∧ ∀ v q, v ≠ t → T s v q → T u v q
  other : ∀ s u, I s → R.other s u → I u ∧ ∀ v q, T s v q → T u v q

section Invariants

variable {I : σ → Prop} {T : σ → ℕ → Program Op Ans α → Prop} {s s' : Pool σ Op Ans α} {a : Action}

theorem Inductive.step (h : Inductive R init I T)
    (hs : I s.shared ∧ ∀ t p, s.thread t = some p → T s.shared t p) (hstep : Step R s a s') :
    I s'.shared ∧ ∀ t p, s'.thread t = some p → T s'.shared t p := by
  obtain ⟨hI, hT⟩ := hs
  cases hstep with
  | @start t p u hnone hr =>
    obtain ⟨hI', hp, hrest⟩ := h.start _ _ _ _ hI hr
    refine ⟨hI', fun v q hq => ?_⟩
    rcases eq_or_ne v t with rfl | hne
    · obtain rfl : p = q := by simpa using hq
      exact hp
    · exact hrest v q hne (hT v q (by simpa [hne] using hq))
  | @perform t o next x u hp hr =>
    obtain ⟨hI', hp', hrest⟩ := h.perform _ _ _ _ _ _ hI (hT _ _ hp) hr
    refine ⟨hI', fun v q hq => ?_⟩
    rcases eq_or_ne v t with rfl | hne
    · obtain rfl : next x = q := by simpa using hq
      exact hp'
    · exact hrest v q hne (hT v q (by simpa [hne] using hq))
  | @finish t a u hp hr =>
    obtain ⟨hI', hrest⟩ := h.finish _ _ _ _ hI (hT _ _ hp) hr
    refine ⟨hI', fun v q hq => ?_⟩
    rcases eq_or_ne v t with rfl | hne
    · simp at hq
    · exact hrest v q hne (hT v q (by simpa [hne] using hq))
  | other hr =>
    obtain ⟨hI', hrest⟩ := h.other _ _ hI hr
    exact ⟨hI', fun v q hq => hrest v q (hT v q hq)⟩

/-- The thread-modular invariant rule. -/
theorem Inductive.reachable (h : Inductive R init I T) (hs : (machine R init).Reachable ok s) :
    I s.shared ∧ ∀ t p, s.thread t = some p → T s.shared t p := by
  refine hs.invariant
    (P := fun s => I s.shared ∧ ∀ t p, s.thread t = some p → T s.shared t p) ?_ ?_
  · rintro s ⟨hi, hnone⟩
    refine ⟨h.init _ hi, ?_⟩
    intro t p hp
    rw [hnone t] at hp
    cases hp
  · intro s a s' _ hs _ hstep
    exact h.step hs hstep

end Invariants

end Threads
