import Mathlib.Data.Nat.Basic
/-!
# Circuit breakers

A breaker stands between a caller and an action: `fire` decides whether
the action is called, and every call that was let through is noted when it
ends. `rolling` is a breaker over a rolling window of time, counted in
buckets: once the share of failed calls in the window exceeds a threshold
it opens, and calls nothing until its reset timeout is over; then it lets
one trial through. Times are in milliseconds from when the instance was
set up, and so are the buckets.
-/

namespace Ecommerce

/-- A circuit breaker with states `β`. -/
structure Breaker (β : Type*) where
  /-- A new instance. -/
  closed : β
  /-- `fire` at a time: whether the action is called. -/
  fire : β → ℕ → Bool × β
  /-- A call that was let through has ended at a time; `true` if it has resolved. -/
  note : β → ℕ → Bool → β

namespace Breaker

/-- The options of a breaker. -/
structure Options where
  errorThresholdPercentage : ℕ
  resetTimeout : ℕ
  rollingCountTimeout : ℕ
  rollingCountBuckets : ℕ := 10

/-- What a breaker does with a call. -/
inductive Mode
  | closed
  /-- It rejects, up to its reset timeout. -/
  | opened (since : ℕ)
  /-- A trial is under way. -/
  | trial
deriving DecidableEq

/-- Its mode, and the times of the calls and of the failures. -/
structure Window where
  mode : Mode
  fires : List ℕ
  failures : List ℕ
deriving DecidableEq

namespace Window

variable (o : Options)

/-- The bucket of a time. -/
def bucket (t : ℕ) : ℕ := t / (o.rollingCountTimeout / o.rollingCountBuckets)

/-- How many of these times are in the window: in the bucket of `t` and those just before. -/
def recent (t : ℕ) (times : List ℕ) : ℕ :=
  times.countP fun s => bucket o t < bucket o s + o.rollingCountBuckets

/-- The share of failed calls exceeds the threshold. -/
def exceeds (w : Window) (t : ℕ) : Bool :=
  o.errorThresholdPercentage * recent o t w.fires < 100 * recent o t w.failures

/-- The reset timeout is over, and no trial has ended since. -/
def halfOpen (w : Window) (t : ℕ) : Bool :=
  match w.mode with
  | .closed => false
  | .opened since => since + o.resetTimeout ≤ t
  | .trial => true

/-- It would let a call through: it is closed, or its reset timeout is over and no trial is
under way. -/
def ready (w : Window) (t : ℕ) : Bool :=
  match w.mode with
  | .closed => true
  | .opened since => since + o.resetTimeout ≤ t
  | .trial => false

/-- Whether the action is called. -/
def fire (w : Window) (t : ℕ) : Bool × Window :=
  let w := { w with fires := t :: w.fires }
  match w.mode with
  | .closed => (true, w)
  | .opened since =>
    if since + o.resetTimeout ≤ t then (true, { w with mode := .trial }) else (false, w)
  | .trial => (false, w)

/-- The window with one more failure. -/
def fail (w : Window) (t : ℕ) : Window := { w with failures := t :: w.failures }

/-- A call has ended. -/
def note (w : Window) (t : ℕ) : Bool → Window
  | true => if w.halfOpen o t then { w with mode := .closed } else w
  | false =>
    if w.halfOpen o t ∨ w.mode = .closed ∧ (w.fail t).exceeds o t then
      { w.fail t with mode := .opened t }
    else w.fail t

end Window

/-- The breaker over a rolling window. -/
def rolling (o : Options) : Breaker Window := ⟨⟨.closed, [], []⟩, Window.fire o, Window.note o⟩

/-- The breaker that never opens. -/
def inert : Breaker Unit := ⟨(), fun _ _ => (true, ()), fun _ _ _ => ()⟩

variable {o : Options} {w : Window} {t t' : ℕ}

theorem fire_eq_ready : (Window.fire o w t).1 = w.ready o t := by
  unfold Window.fire Window.ready
  cases w.mode with
  | opened since =>
    dsimp only
    split <;> simp [*]
  | _ => rfl

/-- It opens with the failure that takes the share over the threshold. -/
theorem opened_of_exceeds (h : w.mode = .closed) (hshare : (w.fail t).exceeds o t = true) :
    (Window.note o w t false).mode = .opened t := by
  rw [Window.note, if_pos (.inr ⟨h, hshare⟩)]

/-- From then on it calls nothing until its reset timeout. -/
theorem rejects_of_opened (h : w.mode = .opened t) (ht : t' < t + o.resetTimeout) :
    (Window.fire o w t').1 = false ∧ (Window.fire o w t').2.mode = .opened t := by
  have hfire : Window.fire o w t' = (false, { w with fires := t' :: w.fires }) := by
    unfold Window.fire
    rw [h]
    exact if_neg (Nat.not_le.mpr ht)
  rw [hfire]
  exact ⟨rfl, h⟩

/-- The calls that end in the meantime change nothing about it. -/
theorem opened_of_note (h : w.mode = .opened t) (ht : t' < t + o.resetTimeout) (ok : Bool) :
    (Window.note o w t' ok).mode = .opened t := by
  have hhalf : w.halfOpen o t' = false := by
    rw [Window.halfOpen, h]
    exact decide_eq_false (Nat.not_le.mpr ht)
  cases ok with
  | true => rwa [Window.note, if_neg (by rw [hhalf]; exact Bool.false_ne_true)]
  | false =>
    rw [Window.note, if_neg]
    · exact h
    · rw [hhalf, h]
      simp

/-! ## Failures -/

theorem failures_fire (o : Options) (w : Window) (t : ℕ) :
    (Window.fire o w t).2.failures = w.failures := by
  unfold Window.fire
  cases w.mode with
  | opened since =>
    dsimp only
    split <;> rfl
  | _ => rfl

/-- A call that has ended has failed at most once. -/
theorem failures_note_le (o : Options) (w : Window) (t : ℕ) (ok : Bool) :
    (Window.note o w t ok).failures.length ≤ w.failures.length + 1 := by
  cases ok with
  | true =>
    rw [Window.note]
    split <;> exact Nat.le_succ _
  | false =>
    rw [Window.note]
    split <;> exact Nat.le_refl _

/-! ## Staying closed -/

theorem fire_of_closed (h : w.mode = .closed) :
    Window.fire o w t = (true, { w with fires := t :: w.fires }) := by
  unfold Window.fire
  rw [h]

theorem note_of_closed (h : w.mode = .closed) : Window.note o w t true = w := by
  rw [Window.note, if_neg]
  rw [Window.halfOpen, h]
  exact Bool.false_ne_true

/-- A failure that leaves the share at the threshold or below does not open it. -/
theorem closed_of_not_exceeds (h : w.mode = .closed) (hshare : (w.fail t).exceeds o t = false) :
    Window.note o w t false = w.fail t := by
  rw [Window.note, if_neg]
  rw [Window.halfOpen, h, hshare]
  simp

/-- A new call is in the window. -/
theorem recent_cons (times : List ℕ) (hbuckets : 0 < o.rollingCountBuckets) :
    Window.recent o t (t :: times) = Window.recent o t times + 1 :=
  List.countP_cons_of_pos (decide_eq_true (Nat.lt_add_of_pos_right hbuckets))

/-- Enough calls in the window outweigh all the failures there have been. -/
theorem not_exceeds_of_le
    (h : 100 * w.failures.length ≤ o.errorThresholdPercentage * Window.recent o t w.fires) :
    w.exceeds o t = false := by
  refine decide_eq_false (Nat.not_lt.mpr (Nat.le_trans ?_ h))
  exact Nat.mul_le_mul_left 100 List.countP_le_length

end Breaker

end Ecommerce
