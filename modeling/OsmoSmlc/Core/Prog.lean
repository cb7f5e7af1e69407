import Mathlib.Logic.Basic

/-! Bodies of sequential functions over a mutable program state. A body either
runs to its end, with a value and the state it leaves behind, or it stops the
process with an error; the state is gone with the process. -/
namespace Osmo

universe u v w

/-- A function body over states `σ` that yields an `α` or stops the process with an `ε`. -/
def Prog (ε : Type v) (σ α : Type u) : Type (max u v) := σ → Except ε (α × σ)

namespace Prog

variable {ε : Type v} {σ τ α β : Type u}

instance : Monad (Prog ε σ) where
  pure a := fun s => .ok (a,s)
  bind x f := fun s =>
    match x s with
    | .ok (a,s') => f a s'
    | .error e => .error e

/-- Stop the process. -/
def crash (e : ε) : Prog ε σ α := fun _ => .error e

/-- Read a part of the state. -/
def read (f : σ → α) : Prog ε σ α := fun s => .ok (f s,s)

/-- Follow a pointer; the process dies of `e` where it does not point to an object. -/
def deref (e : ε) (f : σ → Option α) : Prog ε σ α := fun s =>
  match f s with
  | some a => .ok (a,s)
  | none => .error e

/-- A state transformer that cannot fail. -/
def act (f : σ → α × σ) : Prog ε σ α := fun s => .ok (f s)

/-- Overwrite a part of the state. -/
def modify {σ : Type} (f : σ → σ) : Prog ε σ Unit := fun s => .ok ((),f s)

/-- The process dies of `e` unless the condition holds. -/
def assert {σ : Type} (e : ε) (c : Bool) : Prog ε σ Unit := fun s =>
  if c then .ok ((),s) else .error e

/-- `if (ptr) { ... }`. -/
def ifSome {σ : Type} {β : Type*} (o : Option β) (f : β → Prog ε σ Unit) : Prog ε σ Unit :=
  match o with
  | some b => f b
  | none => pure ()

/-- `if (cond) { ... }`. -/
def ifTrue {σ : Type} (c : Bool) (x : Prog ε σ Unit) : Prog ε σ Unit :=
  if c then x else pure ()

/-- Run a body that knows only the part `get` of the state. -/
def zoom (get : σ → τ) (set : τ → σ → σ) (x : Prog ε τ α) : Prog ε σ α := fun s =>
  match x (get s) with
  | .ok (a,t) => .ok (a,set t s)
  | .error e => .error e

@[simp] theorem pure_apply (a : α) (s : σ) : (pure a : Prog ε σ α) s = .ok (a,s) := rfl

theorem bind_apply (x : Prog ε σ α) (f : α → Prog ε σ β) (s : σ) :
    (x >>= f) s = match x s with
      | .ok (a,s') => f a s'
      | .error e => .error e := rfl

/-- The rule of sequential composition: run the first part, go on from where it stopped. -/
theorem bind_ok {x : Prog ε σ α} {f : α → Prog ε σ β} {s s' : σ} {a : α}
    (h : x s = .ok (a,s')) : (x >>= f) s = f a s' := by
  rw [bind_apply, h]

theorem bind_error {x : Prog ε σ α} {f : α → Prog ε σ β} {s : σ} {e : ε}
    (h : x s = .error e) : (x >>= f) s = .error e := by
  rw [bind_apply, h]

/-- A composition that ends has come through both parts. -/
theorem bind_eq_ok {x : Prog ε σ α} {f : α → Prog ε σ β} {s : σ} {r : β × σ} :
    (x >>= f) s = .ok r ↔ ∃ a t, x s = .ok (a,t) ∧ f a t = .ok r := by
  rw [bind_apply]
  cases h : x s with
  | error e => simp
  | ok q =>
    constructor
    · exact fun hr => ⟨q.1, q.2, rfl, hr⟩
    · rintro ⟨a, t, hq, hr⟩
      cases hq
      exact hr

@[simp] theorem crash_apply (e : ε) (s : σ) : (crash e : Prog ε σ α) s = .error e := rfl

@[simp] theorem read_apply (f : σ → α) (s : σ) : (read f : Prog ε σ α) s = .ok (f s,s) := rfl

@[simp] theorem act_apply (f : σ → α × σ) (s : σ) : (act f : Prog ε σ α) s = .ok (f s) := rfl

@[simp] theorem modify_apply {σ : Type} (f : σ → σ) (s : σ) :
    (modify f : Prog ε σ Unit) s = .ok ((),f s) := rfl

theorem deref_some {e : ε} {f : σ → Option α} {s : σ} {a : α} (h : f s = some a) :
    deref e f s = .ok (a,s) := by
  simp [deref,h]

/-- A pointer that is known without looking at the state. -/
theorem check_some {e : ε} {o : Option α} {s : σ} {a : α} (h : o = some a) :
    deref e (fun _ => o) s = .ok (a,s) := by
  simp [deref,h]

@[simp] theorem ifSome_some {σ : Type} {β : Type*} (b : β) (f : β → Prog ε σ Unit) :
    ifSome (some b) f = f b := rfl

@[simp] theorem ifSome_none {σ : Type} {β : Type*} (f : β → Prog ε σ Unit) :
    ifSome none f = pure () := rfl

@[simp] theorem ifTrue_true {σ : Type} (x : Prog ε σ Unit) : ifTrue true x = x := rfl

@[simp] theorem ifTrue_false {σ : Type} (x : Prog ε σ Unit) : ifTrue false x = pure () := rfl

theorem assert_true {σ : Type} {e : ε} {c : Bool} {s : σ} (h : c = true) :
    (assert e c : Prog ε σ Unit) s = .ok ((),s) := by
  simp [assert,h]

theorem zoom_ok {get : σ → τ} {set : τ → σ → σ} {x : Prog ε τ α} {s : σ} {a : α} {t : τ}
    (h : x (get s) = .ok (a,t)) : zoom get set x s = .ok (a,set t s) := by
  simp [zoom,h]

theorem deref_eq_ok {e : ε} {f : σ → Option α} {s s' : σ} {a : α}
    (h : deref e f s = .ok (a,s')) : f s = some a ∧ s' = s := by
  unfold deref at h
  split at h
  · cases h
    exact ⟨‹_›, rfl⟩
  · cases h

/-- Where the body ends, it ends with this value. -/
def Yields (a : α) (x : Prog ε σ α) : Prop := ∀ s b s', x s = .ok (b,s') → b = a

theorem yields_pure (a : α) : Yields a (pure a : Prog ε σ α) := by
  intro s b s' h
  cases h
  rfl

theorem Yields.bind {b : β} {x : Prog ε σ α} {f : α → Prog ε σ β} (h : ∀ a, Yields b (f a)) :
    Yields b (x >>= f) := by
  intro s c s' hc
  obtain ⟨a, t, -, hf⟩ := bind_eq_ok.mp hc
  exact h a t c s' hf

/-- The body does not look at what `f` changes in the state, nor does it change that itself. -/
def Frame (f : σ → σ) (x : Prog ε σ α) : Prop :=
  ∀ s, x (f s) = (x s).map fun r => (r.1,f r.2)

section Frame

variable {f : σ → σ}

theorem Frame.ok {x : Prog ε σ α} {s s' : σ} {a : α} (h : Frame f x) (hx : x s = .ok (a,s')) :
    x (f s) = .ok (a,f s') := by
  rw [h s, hx]
  rfl

theorem frame_pure (a : α) : Frame f (pure a : Prog ε σ α) := fun _ => rfl

theorem frame_crash (e : ε) : Frame f (crash e : Prog ε σ α) := fun _ => rfl

theorem Frame.bind {x : Prog ε σ α} {y : α → Prog ε σ β} (hx : Frame f x)
    (hy : ∀ a, Frame f (y a)) : Frame f (x >>= y) := by
  intro s
  rw [bind_apply, bind_apply, hx s]
  cases x s with
  | error e => rfl
  | ok r => exact hy r.1 r.2

theorem frame_deref {e : ε} {g : σ → Option α} (h : ∀ s, g (f s) = g s) :
    Frame f (deref e g) := by
  intro s
  unfold deref
  rw [h s]
  cases g s <;> rfl

theorem frame_read {g : σ → α} (h : ∀ s, g (f s) = g s) : Frame f (read g : Prog ε σ α) := by
  intro s
  rw [read_apply, read_apply, h s]
  rfl

theorem frame_modify {σ : Type} {f g : σ → σ} (h : ∀ s, g (f s) = f (g s)) :
    Frame f (modify g : Prog ε σ Unit) := by
  intro s
  rw [modify_apply, modify_apply, h s]
  rfl

theorem frame_assert {σ : Type} {f : σ → σ} {e : ε} {c : Bool} :
    Frame f (assert e c : Prog ε σ Unit) := by
  intro s
  unfold assert
  cases c <;> rfl

theorem frame_ifSome {σ : Type} {f : σ → σ} {β : Type*} {o : Option β} {y : β → Prog ε σ Unit}
    (hy : ∀ b, Frame f (y b)) : Frame f (ifSome o y) := by
  cases o with
  | none => exact frame_pure ()
  | some b => exact hy b

theorem frame_ifTrue {σ : Type} {f : σ → σ} {c : Bool} {x : Prog ε σ Unit} (hx : Frame f x) :
    Frame f (ifTrue c x) := by
  cases c with
  | false => exact frame_pure ()
  | true => exact hx

theorem frame_zoom {get : σ → τ} {set : τ → σ → σ} {x : Prog ε τ α} (hg : ∀ s, get (f s) = get s)
    (hs : ∀ t s, set t (f s) = f (set t s)) : Frame f (zoom get set x) := by
  intro s
  unfold zoom
  rw [hg s]
  cases x (get s) with
  | error e => rfl
  | ok r =>
    show Except.ok (r.1,set r.2 (f s)) = _
    rw [hs r.2 s]
    rfl

end Frame

end Prog
end Osmo
