import Ecommerce.Common.Machine
import Ecommerce.Common.Pool
import Ecommerce.Common.Program
/-!
# Handlers side by side

The handlers of a service share a state, and between two steps of one of
them the others move. `Program.Respects` is the judgement on one handler:
whatever the others do within `rely`, and whatever its calls come to, each
of its steps is within `guar` and it ends as `post` says; it has a rule
for each way of composing programs. `Host` is the machine of any number of
handlers under way. Where each of them is judged against what all of them
keep (`Host.Judged`), each ends as its own judgement says, in every
interleaving (`Host.Judged.ended_of_reach`).
-/

namespace Ecommerce

variable {Op : Type} {Ans : Op → Type} {ε α β σ ρ χ τ : Type}

namespace Program

/-- **What a handler does among others.** -/
def Respects (answers : (op : Op) → σ → Except ε (Ans op) → σ → Prop) (rely guar : σ → σ → Prop)
    (post : Except ε α → σ → Prop) : Program Op Ans ε α → σ → Prop
  | done r, s => ∀ s', rely s s' → post r s'
  | call op k, s => ∀ s' r s'', rely s s' → answers op s' r s'' →
      guar s' s'' ∧ Respects answers rely guar post (k r) s''

variable {answers : (op : Op) → σ → Except ε (Ans op) → σ → Prop} {rely guar : σ → σ → Prop}
variable {post mid : Except ε α → σ → Prop} {p : Program Op Ans ε α} {s s' : σ}

namespace Respects

/-- It does not matter what the others have done so far. -/
theorem stable (htrans : ∀ a b c, rely a b → rely b c → rely a c)
    (h : p.Respects answers rely guar post s) (hrely : rely s s') :
    p.Respects answers rely guar post s' := by
  cases p with
  | done r => exact fun t ht => h t (htrans _ _ _ hrely ht)
  | call op k => exact fun t r t' ht hans => h t r t' (htrans _ _ _ hrely ht) hans

/-- What is known of the end may be weakened. -/
theorem weaken (h : p.Respects answers rely guar mid s)
    (hpost : ∀ r s, mid r s → post r s) : p.Respects answers rely guar post s := by
  induction p generalizing s with
  | done r => exact fun t ht => hpost r t (h t ht)
  | call op k ih =>
    intro t r t' ht hans
    obtain ⟨hguar, hrest⟩ := h t r t' ht hans
    exact ⟨hguar, ih r hrest⟩

/-- **The end is remembered to come after the start**, where a handler keeps what it relies on. -/
theorem remembers {G : σ → σ → Prop} (htrans : ∀ a b c, G a b → G b c → G a c)
    (h : p.Respects answers G G post s) :
    p.Respects answers G G (fun r t => G s t ∧ post r t) s := by
  have hgoes : ∀ {q : Program Op Ans ε α} {u : σ}, G s u → q.Respects answers G G post u →
      q.Respects answers G G (fun r t => G s t ∧ post r t) u := by
    intro q u hu hq
    induction q generalizing u with
    | done r => exact fun t ht => ⟨htrans _ _ _ hu ht, hq t ht⟩
    | call op k ih =>
      intro t r t' ht hans
      obtain ⟨hguar, hrest⟩ := hq t r t' ht hans
      exact ⟨hguar, ih r (htrans _ _ _ (htrans _ _ _ hu ht) hguar) hrest⟩
  cases p with
  | done r => exact fun t ht => ⟨ht, h t ht⟩
  | call op k =>
    intro t r t' ht hans
    obtain ⟨hguar, hrest⟩ := h t r t' ht hans
    exact ⟨hguar, hgoes (htrans _ _ _ ht hguar) hrest⟩

/-- A program that returns at once. -/
theorem returned {a : α} (h : ∀ s', rely s s' → post (.ok a) s') :
    (pure a : Program Op Ans ε α).Respects answers rely guar post s := h

/-- A program that throws at once. -/
theorem thrown {e : ε} (h : ∀ s', rely s s' → post (.error e) s') :
    (throw e : Program Op Ans ε α).Respects answers rely guar post s := h

/-- **An awaited call**: the step is guaranteed, and the rest goes on from its answer. -/
theorem awaited {op : Op} {f : Ans op → Program Op Ans ε α}
    (h : ∀ s' r s'', rely s s' → answers op s' r s'' → guar s' s'' ∧
      ((∀ a, r = .ok a → (f a).Respects answers rely guar post s'') ∧
        ∀ e, r = .error e → ∀ t, rely s'' t → post (.error e) t)) :
    (await op >>= f).Respects answers rely guar post s := by
  intro s' r s'' hrely hans
  obtain ⟨hguar, hok, herror⟩ := h s' r s'' hrely hans
  refine ⟨hguar, ?_⟩
  cases r with
  | ok a => exact hok a rfl
  | error e => exact herror e rfl

/-- **A sequence**: the second half goes on from where the first has returned. -/
theorem andThen {f : α → Program Op Ans ε β} {post : Except ε β → σ → Prop}
    (hrefl : ∀ s, rely s s) (h : p.Respects answers rely guar mid s)
    (hok : ∀ a s, mid (.ok a) s → (f a).Respects answers rely guar post s)
    (herror : ∀ e s, mid (.error e) s → post (.error e) s) :
    (p >>= f).Respects answers rely guar post s := by
  induction p generalizing s with
  | done r =>
    cases r with
    | ok a => exact hok a s (h s (hrefl s))
    | error e => exact fun t ht => herror e t (h t ht)
  | call op k ih =>
    intro t r t' ht hans
    obtain ⟨hguar, hrest⟩ := h t r t' ht hans
    exact ⟨hguar, ih r hrest⟩

/-- **A `catch`** goes on from where its body has thrown. -/
theorem caught {f : ε → Program Op Ans ε α} (hrefl : ∀ s, rely s s)
    (h : p.Respects answers rely guar mid s) (hok : ∀ a s, mid (.ok a) s → post (.ok a) s)
    (herror : ∀ e s, mid (.error e) s → (f e).Respects answers rely guar post s) :
    (tryCatch p f).Respects answers rely guar post s := by
  induction p generalizing s with
  | done r =>
    cases r with
    | ok a => exact fun t ht => hok a t (h t ht)
    | error e => exact herror e s (h s (hrefl s))
  | call op k ih =>
    intro t r t' ht hans
    obtain ⟨hguar, hrest⟩ := h t r t' ht hans
    exact ⟨hguar, ih r hrest⟩

end Respects

end Program

/-! ## The machine -/

/-- The handlers of a service, what their calls come to (an environment chooses, and knows
whose call it is), and what changes in the shared state without them. -/
structure Host (Op : Type) (Ans : Op → Type) (ε α σ ρ χ τ : Type) where
  handler : ρ → Program Op Ans ε α
  perform : ℕ → ρ → χ → (op : Op) → σ → Option (Except ε (Ans op) × σ)
  drift : τ → σ → Option σ

/-- A request under way: the state it arrived in, and what is left of its handler. -/
structure Thread (Op : Type) (Ans : Op → Type) (ε α σ ρ : Type) where
  req : ρ
  since : σ
  rest : Program Op Ans ε α

namespace Host

/-- The shared state, and the requests so far. -/
structure State (Op : Type) (Ans : Op → Type) (ε α σ ρ : Type) where
  shared : σ
  threads : List (Thread Op Ans ε α σ ρ)

/-- A step. A handler whose process has crashed takes no further one. -/
inductive Move (ρ χ τ : Type)
  /-- A request arrives. -/
  | arrive (req : ρ)
  /-- What the `i`-th handler awaits resolves or rejects. -/
  | go (i : ℕ) (c : χ)
  /-- The shared state changes by itself. -/
  | drift (e : τ)

variable {H : Host Op Ans ε α σ ρ χ τ}

/-- What is left of a handler once it has its answer. -/
def resume (H : Host Op Ans ε α σ ρ χ τ) (i : ℕ) (c : χ) (req : ρ) (s : σ) :
    Program Op Ans ε α → Option (Program Op Ans ε α × σ)
  | .done _ => none
  | .call op k => (H.perform i req c op s).map fun answer => (k answer.1, answer.2)

/-- A step. -/
def step (H : Host Op Ans ε α σ ρ χ τ) (s : State Op Ans ε α σ ρ) :
    Move ρ χ τ → Option (State Op Ans ε α σ ρ)
  | .arrive req => some { s with threads := s.threads ++ [⟨req, s.shared, H.handler req⟩] }
  | .go i c => s.threads[i]?.bind fun t => (H.resume i c t.req s.shared t.rest).map fun next =>
      ⟨next.2, s.threads.set i { t with rest := next.1 }⟩
  | .drift e => (H.drift e s.shared).map fun shared => { s with shared := shared }

/-- What the calls of one request come to. -/
def answers (H : Host Op Ans ε α σ ρ χ τ) (i : ℕ) (req : ρ) (op : Op) (s : σ)
    (r : Except ε (Ans op)) (s' : σ) : Prop := ∃ c, H.perform i req c op s = some (r, s')

/-- The `i`-th request has been answered. -/
def State.Answered (s : State Op Ans ε α σ ρ) (i : ℕ) (req : ρ) (since : σ) (r : Except ε α) :
    Prop := s.threads[i]? = some ⟨req, since, .done r⟩

/-- The `i`-th request has been answered, as `p` checks. -/
def State.hasAnswered (s : State Op Ans ε α σ ρ) (i : ℕ) (p : ρ → σ → Except ε α → Bool) : Bool :=
  match s.threads[i]? with
  | some ⟨req, since, .done r⟩ => p req since r
  | _ => false

theorem State.answered_of_hasAnswered {s : State Op Ans ε α σ ρ} {i : ℕ}
    {p : ρ → σ → Except ε α → Bool} (h : s.hasAnswered i p = true) :
    ∃ req since r, s.Answered i req since r ∧ p req since r = true := by
  unfold State.hasAnswered at h
  split at h
  · exact ⟨_, _, _, ‹_›, h⟩
  · cases h

/-! ## Judged services -/

/-- Steps within `R` that keep an invariant. -/
def Keeping (R : σ → σ → Prop) (I : σ → Prop) (s s' : σ) : Prop := R s s' ∧ (I s → I s')

section Judged

variable {init : State Op Ans ε α σ ρ → Prop} {R : σ → σ → Prop} {I : σ → Prop}
variable {guard : State Op Ans ε α σ ρ → Move ρ χ τ → Prop}
variable {P : ℕ → ρ → σ → Except ε α → σ → Prop} {s s' : State Op Ans ε α σ ρ}

theorem Keeping.refl (hrefl : ∀ s, R s s) (s : σ) : Keeping R I s s := ⟨hrefl s, id⟩

theorem Keeping.trans (htrans : ∀ a b c, R a b → R b c → R a c) (a b c : σ)
    (h : Keeping R I a b) (h' : Keeping R I b c) : Keeping R I a c :=
  ⟨htrans a b c h.1 h'.1, fun hI => h'.2 (h.2 hI)⟩

/-- **A service whose handlers are judged**: each of them on its own, against steps within `R`
that keep `I`, is shown to take only such steps and to end as `P` says. -/
structure Judged (H : Host Op Ans ε α σ ρ χ τ) (init : State Op Ans ε α σ ρ → Prop)
    (guard : State Op Ans ε α σ ρ → Move ρ χ τ → Prop) (R : σ → σ → Prop) (I : σ → Prop)
    (P : ℕ → ρ → σ → Except ε α → σ → Prop) : Prop where
  refl : ∀ s, R s s
  trans : ∀ a b c, R a b → R b c → R a c
  opens : ∀ s, init s → I s.shared ∧ s.threads = []
  drifts : ∀ s e shared, H.drift e s = some shared → Keeping R I s shared
  handles : ∀ s i req, guard s (.arrive req) → (H.handler req).Respects (H.answers i req)
    (Keeping R I) (Keeping R I) (P i req s.shared) s.shared

/-- What is left of each handler is still judged. -/
def State.Holds (H : Host Op Ans ε α σ ρ χ τ) (R : σ → σ → Prop) (I : σ → Prop)
    (P : ℕ → ρ → σ → Except ε α → σ → Prop) (s : State Op Ans ε α σ ρ) : Prop :=
  I s.shared ∧ ∀ (i : ℕ) (t : Thread Op Ans ε α σ ρ), s.threads[i]? = some t →
    t.rest.Respects (H.answers i t.req) (Keeping R I) (Keeping R I)
      (fun r u => I t.since ∧ R t.since u ∧ P i t.req t.since r u) s.shared

namespace Judged

/-- **A step of any of them** is one the others rely on. -/
theorem step (h : Judged H init guard R I P) {l : Move ρ χ τ} (hholds : s.Holds H R I P)
    (hg : guard s l) (hs : H.step s l = some s') : R s.shared s'.shared ∧ s'.Holds H R I P := by
  obtain ⟨hI, hthreads⟩ := hholds
  cases l with
  | arrive req =>
    cases hs
    refine ⟨h.refl _, hI, fun i t ht => ?_⟩
    rcases getElem?_append_singleton ht with hold | ⟨rfl, rfl⟩
    · exact hthreads i t hold
    · exact ((h.handles s _ req hg).remembers (Keeping.trans h.trans)).weaken
        fun r u hend => ⟨hI, hend.1.1, hend.2⟩
  | drift e =>
    obtain ⟨shared, hshared, rfl⟩ := Option.map_eq_some_iff.mp hs
    have hkeeps := h.drifts _ _ _ hshared
    exact ⟨hkeeps.1, hkeeps.2 hI,
      fun i t ht => (hthreads i t ht).stable (Keeping.trans h.trans) hkeeps⟩
  | go i c =>
    obtain ⟨t, ht, hnext⟩ := Option.bind_eq_some_iff.mp hs
    obtain ⟨⟨rest, shared⟩, hresume, rfl⟩ := Option.map_eq_some_iff.mp hnext
    have hown := hthreads i t ht
    -- The handler's own step is within the guarantee, which the others rely on.
    have hmove : Keeping R I s.shared shared ∧
        rest.Respects (H.answers i t.req) (Keeping R I) (Keeping R I)
          (fun r u => I t.since ∧ R t.since u ∧ P i t.req t.since r u) shared := by
      obtain ⟨req, since, rest₀⟩ := t
      cases rest₀ with
      | done r => cases hresume
      | call op k =>
        obtain ⟨⟨r, shared'⟩, hans, heq⟩ := Option.map_eq_some_iff.mp hresume
        obtain ⟨rfl, rfl⟩ := Prod.mk.inj heq
        exact hown s.shared r shared' (Keeping.refl h.refl _) ⟨c, hans⟩
    refine ⟨hmove.1.1, hmove.1.2 hI, fun j u hu => ?_⟩
    rcases getElem?_set_cases hu with ⟨rfl, rfl⟩ | ⟨-, hold⟩
    · exact hmove.2
    · exact (hthreads j u hold).stable (Keeping.trans h.trans) hmove.1

theorem holds_of_reach (h : Judged H init guard R I P) (hreach : Reach H.step init guard s) :
    s.Holds H R I P := by
  refine hreach.invariant (I := fun s => s.Holds H R I P) (fun s h0 => ?_)
    fun _ _ _ hholds hg hs => (h.step hholds hg hs).2
  obtain ⟨hI, hnone⟩ := h.opens s h0
  refine ⟨hI, fun i t ht => ?_⟩
  rw [hnone] at ht
  cases ht

/-- **Every request ends as its judgement says**, in every interleaving: what is known of the
state it arrived in, of what has become of that state, and of its end. -/
theorem ended_of_reach (h : Judged H init guard R I P) (hreach : Reach H.step init guard s) :
    I s.shared ∧ ∀ i req since r, s.Answered i req since r →
      I since ∧ R since s.shared ∧ P i req since r s.shared := by
  obtain ⟨hI, hthreads⟩ := h.holds_of_reach hreach
  exact ⟨hI, fun i req since r hans => hthreads i _ hans s.shared (Keeping.refl h.refl _)⟩

/-- And every step of a run is one the handlers rely on. -/
theorem within_of_step (h : Judged H init guard R I P) {l : Move ρ χ τ}
    (hreach : Reach H.step init guard s) (hg : guard s l) (hs : H.step s l = some s') :
    R s.shared s'.shared :=
  (h.step (h.holds_of_reach hreach) hg hs).1

end Judged

end Judged

end Host

end Ecommerce
