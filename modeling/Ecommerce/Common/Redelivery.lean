import Ecommerce.Common.Machine
import Ecommerce.Common.Pool
import Ecommerce.Common.Program
/-!
# Queues that deliver again

A broker keeps a message until its consumer has acked it, and hands it out
once more, with a flag, when the consumer dies before that. A consumer may
refuse a message, which takes it to a dead-letter queue. Where a consumer
refuses whatever carries the flag (`Consumer.Backstop`), its handler runs
at most once for each message, however often and wherever it dies:
`Consumer.Backstop.handledOnce_of_reach`.
-/

namespace Ecommerce

variable {Op : Type} {Ans : Op → Type} {ε α ρ : Type}

/-- An awaited call and what it came to. -/
structure Program.Call (Op : Type) (Ans : Op → Type) (ε : Type) where
  op : Op
  answer : Except ε (Ans op)

/-- **What is left of a program** after some of its calls. -/
inductive Program.Path (p : Program Op Ans ε α) :
    List (Program.Call Op Ans ε) → Program Op Ans ε α → Prop
  | start : Path p [] p
  | call {op : Op} {k : Except ε (Ans op) → Program Op Ans ε α}
      {calls : List (Program.Call Op Ans ε)} (r : Except ε (Ans op))
      (h : Path p calls (.call op k)) : Path p (calls ++ [⟨op, r⟩]) (k r)

/-- What handles the messages of a queue: the handler is told the flag, and some of its results
refuse the message. -/
structure Consumer (Op : Type) (Ans : Op → Type) (ε α ρ : Type) where
  handler : ρ → Bool → Program Op Ans ε α
  refuses : α → Bool

namespace Consumer

/-- Where a message is. -/
inductive Stage (Op : Type) (Ans : Op → Type) (ε α : Type)
  | queued (redelivered : Bool)
  /-- A handler works on it. -/
  | running (redelivered : Bool) (rest : Program Op Ans ε α)
  /-- The reply is sent, and the message is not acked yet. -/
  | replied (redelivered : Bool)
  | acked
  /-- It is in the dead-letter queue. -/
  | dead

/-- A message with its history: how often it was delivered, what its handlers have awaited, and
what was replied to it. -/
structure Letter (Op : Type) (Ans : Op → Type) (ε α ρ : Type) where
  req : ρ
  stage : Stage Op Ans ε α
  deliveries : ℕ
  calls : List (Program.Call Op Ans ε)
  replies : List α

/-- A step. -/
inductive Move (Op : Type) (Ans : Op → Type) (ε ρ : Type)
  | publish (req : ρ)
  | deliver (i : ℕ)
  /-- What the handler of the `i`-th message awaits comes to what `f` says. -/
  | answer (i : ℕ) (f : (op : Op) → Except ε (Ans op))
  /-- The handler has returned. -/
  | finish (i : ℕ)
  | ack (i : ℕ)
  /-- The process dies that has the message. -/
  | crash (i : ℕ)

/-- A message that was just published. -/
def Letter.fresh (req : ρ) : Letter Op Ans ε α ρ := ⟨req, .queued false, 0, [], []⟩

namespace Letter

/-- The message is handed out. -/
def deliver (C : Consumer Op Ans ε α ρ) (m : Letter Op Ans ε α ρ) :
    Option (Letter Op Ans ε α ρ) :=
  match m.stage with
  | .queued b => some { m with stage := .running b (C.handler m.req b)
                               deliveries := m.deliveries + 1 }
  | _ => none

/-- A call of its handler is answered. -/
def answer (f : (op : Op) → Except ε (Ans op)) (m : Letter Op Ans ε α ρ) :
    Option (Letter Op Ans ε α ρ) :=
  match m.stage with
  | .running b (.call op k) => some { m with stage := .running b (k (f op))
                                             calls := m.calls ++ [⟨op, f op⟩] }
  | _ => none

/-- Its handler has returned. A handler that throws sends nothing, and its message waits. -/
def finish (C : Consumer Op Ans ε α ρ) (m : Letter Op Ans ε α ρ) :
    Option (Letter Op Ans ε α ρ) :=
  match m.stage with
  | .running b (.done (.ok a)) =>
    if C.refuses a then some { m with stage := .dead }
    else some { m with stage := .replied b, replies := m.replies ++ [a] }
  | _ => none

def ack (m : Letter Op Ans ε α ρ) : Option (Letter Op Ans ε α ρ) :=
  match m.stage with
  | .replied _ => some { m with stage := .acked }
  | _ => none

/-- The message goes back, and carries the flag. -/
def crash (m : Letter Op Ans ε α ρ) : Option (Letter Op Ans ε α ρ) :=
  match m.stage with
  | .running _ _ => some { m with stage := .queued true }
  | .replied _ => some { m with stage := .queued true }
  | _ => none

end Letter

/-- One message moves. -/
def act (C : Consumer Op Ans ε α ρ) (m : Letter Op Ans ε α ρ) :
    Move Op Ans ε ρ → Option (Letter Op Ans ε α ρ)
  | .publish _ => none
  | .deliver _ => m.deliver C
  | .answer _ f => m.answer f
  | .finish _ => m.finish C
  | .ack _ => m.ack
  | .crash _ => m.crash

/-- The message a step is about. -/
def Move.about : Move Op Ans ε ρ → Option ℕ
  | .publish _ => none
  | .deliver i => some i
  | .answer i _ => some i
  | .finish i => some i
  | .ack i => some i
  | .crash i => some i

/-- A step of the queue and its consumers. -/
def step (C : Consumer Op Ans ε α ρ) (s : List (Letter Op Ans ε α ρ)) (v : Move Op Ans ε ρ) :
    Option (List (Letter Op Ans ε α ρ)) :=
  match v with
  | .publish req => some (s ++ [.fresh req])
  | v => v.about.bind fun i => s[i]?.bind fun m => (C.act m v).map fun m' => s.set i m'

/-! ## At most once -/

/-- A consumer that refuses what comes back, and nothing else. -/
structure Backstop (C : Consumer Op Ans ε α ρ) : Prop where
  again : ∀ req, ∃ a, C.handler req true = .done (.ok a) ∧ C.refuses a = true
  first : ∀ req calls a, (C.handler req false).Path calls (.done (.ok a)) → C.refuses a = false

variable {C : Consumer Op Ans ε α ρ} {m m' : Letter Op Ans ε α ρ} {s : List (Letter Op Ans ε α ρ)}

/-- What was done for a message is the beginning of one run of its handler, and what was
replied, its end. -/
def RunsOnce (C : Consumer Op Ans ε α ρ) (m : Letter Op Ans ε α ρ) : Prop :=
  ∃ rest, (C.handler m.req false).Path m.calls rest ∧
    (m.replies = [] ∨ ∃ a, rest = .done (.ok a) ∧ m.replies = [a])

/-- Its handler has run to the end, and its result was replied. -/
def Replied (C : Consumer Op Ans ε α ρ) (m : Letter Op Ans ε α ρ) : Prop :=
  ∃ a, (C.handler m.req false).Path m.calls (.done (.ok a)) ∧ m.replies = [a]

/-- **The invariant of a message.** -/
def Tracked (C : Consumer Op Ans ε α ρ) (m : Letter Op Ans ε α ρ) : Prop :=
  match m.stage with
  | .queued false => m.calls = [] ∧ m.replies = [] ∧ m.deliveries = 0
  | .running false rest =>
    (C.handler m.req false).Path m.calls rest ∧ m.replies = [] ∧ m.deliveries = 1
  | .replied false => Replied C m ∧ m.deliveries = 1
  | .acked => Replied C m ∧ m.deliveries = 1
  | .queued true => RunsOnce C m ∧ 1 ≤ m.deliveries
  | .running true rest =>
    RunsOnce C m ∧ 2 ≤ m.deliveries ∧ ∃ a, rest = .done (.ok a) ∧ C.refuses a = true
  | .replied true => False
  | .dead => RunsOnce C m ∧ 2 ≤ m.deliveries

theorem RunsOnce.of_replied (h : Replied C m) : RunsOnce C m := by
  obtain ⟨a, hpath, hreplies⟩ := h
  exact ⟨_, hpath, .inr ⟨a, rfl, hreplies⟩⟩

namespace Tracked

theorem deliver (hC : C.Backstop) (h : Tracked C m) (hm : m.deliver C = some m') :
    Tracked C m' := by
  obtain ⟨req, stage, deliveries, calls, replies⟩ := m
  cases stage with
  | queued b =>
    obtain rfl := Option.some.inj hm
    cases b with
    | false =>
      obtain ⟨rfl, rfl, rfl⟩ := h
      exact ⟨.start, rfl, rfl⟩
    | true =>
      obtain ⟨hruns, hdeliveries⟩ := h
      exact ⟨hruns, Nat.succ_le_succ hdeliveries, hC.again req⟩
  | _ => cases hm

theorem answer (h : Tracked C m) {f : (op : Op) → Except ε (Ans op)} (hm : m.answer f = some m') :
    Tracked C m' := by
  obtain ⟨req, stage, deliveries, calls, replies⟩ := m
  cases stage with
  | running b rest =>
    cases rest with
    | done r => cases hm
    | call op k =>
      obtain rfl := Option.some.inj hm
      cases b with
      | false =>
        obtain ⟨hpath, hreplies, hdeliveries⟩ := h
        exact ⟨hpath.call (f op), hreplies, hdeliveries⟩
      | true =>
        -- What comes back is refused without a call.
        obtain ⟨-, -, a, hrest, -⟩ := h
        cases hrest
  | _ => cases hm

theorem finish (hC : C.Backstop) (h : Tracked C m) (hm : m.finish C = some m') :
    Tracked C m' := by
  obtain ⟨req, stage, deliveries, calls, replies⟩ := m
  cases stage with
  | running b rest =>
    rcases rest with (e | a) | _
    · cases hm
    · change (if C.refuses a then _ else _) = _ at hm
      cases b with
      | false =>
        obtain ⟨hpath, hreplies, hdeliveries⟩ := h
        rw [hC.first _ _ _ hpath, if_neg Bool.false_ne_true] at hm
        obtain rfl := Option.some.inj hm
        have hnone : replies = [] := hreplies
        have hone : replies ++ [a] = [a] := by rw [hnone, List.nil_append]
        exact ⟨⟨a, hpath, hone⟩, hdeliveries⟩
      | true =>
        obtain ⟨hruns, hdeliveries, a', hrest, hrefuses⟩ := h
        obtain rfl : a = a' := Except.ok.inj (Program.done.inj hrest)
        rw [if_pos hrefuses] at hm
        obtain rfl := Option.some.inj hm
        exact ⟨hruns, hdeliveries⟩
    · cases hm
  | _ => cases hm

theorem ack (h : Tracked C m) (hm : m.ack = some m') : Tracked C m' := by
  obtain ⟨req, stage, deliveries, calls, replies⟩ := m
  cases stage with
  | replied b =>
    obtain rfl := Option.some.inj hm
    cases b with
    | false => exact h
    | true => exact h.elim
  | _ => cases hm

/-- What a dead consumer has done remains done, and is not begun again. -/
theorem crash (h : Tracked C m) (hm : m.crash = some m') : Tracked C m' := by
  obtain ⟨req, stage, deliveries, calls, replies⟩ := m
  cases stage with
  | running b rest =>
    obtain rfl := Option.some.inj hm
    cases b with
    | false =>
      obtain ⟨hpath, hreplies, hdeliveries⟩ := h
      exact ⟨⟨rest, hpath, .inl hreplies⟩, Nat.le_of_eq hdeliveries.symm⟩
    | true =>
      obtain ⟨hruns, hdeliveries, -⟩ := h
      exact ⟨hruns, Nat.le_of_succ_le hdeliveries⟩
  | replied b =>
    obtain rfl := Option.some.inj hm
    cases b with
    | false => exact ⟨.of_replied h.1, Nat.le_of_eq h.2.symm⟩
    | true => exact h.elim
  | _ => cases hm

/-- **A message stays tracked** when it moves. -/
theorem act (hC : C.Backstop) (h : Tracked C m) {v : Move Op Ans ε ρ} (hm : C.act m v = some m') :
    Tracked C m' := by
  cases v with
  | publish req => cases hm
  | deliver i => exact h.deliver hC hm
  | answer i f => exact h.answer hm
  | finish i => exact h.finish hC hm
  | ack i => exact h.ack hm
  | crash i => exact h.crash hm

end Tracked

theorem tracked_fresh (req : ρ) : Tracked C (.fresh req) := ⟨rfl, rfl, rfl⟩

/-- **Every message of a run is tracked.** -/
theorem Backstop.tracked_of_reach (hC : C.Backstop)
    (h : Reach C.step (· = []) (fun _ _ => True) s) : ∀ m ∈ s, Tracked C m := by
  refine h.invariant (I := fun s => ∀ m ∈ s, Tracked C m) (fun s h0 m hm => ?_)
    fun s v s' hinv _ hs m hm => ?_
  · rw [h0] at hm
    cases hm
  · have hone : (v.about.bind fun i => s[i]?.bind fun m => (C.act m v).map fun m' => s.set i m') =
        some s' → Tracked C m := by
      intro hs
      obtain ⟨i, -, hs⟩ := Option.bind_eq_some_iff.mp hs
      obtain ⟨m₀, hm₀, hs⟩ := Option.bind_eq_some_iff.mp hs
      obtain ⟨m₁, hact, rfl⟩ := Option.map_eq_some_iff.mp hs
      rcases List.mem_or_eq_of_mem_set hm with hold | rfl
      · exact hinv m hold
      · exact (hinv m₀ (List.mem_of_getElem? hm₀)).act hC hact
    cases v with
    | publish req =>
      obtain rfl := Option.some.inj hs
      rcases List.mem_append.mp hm with hold | hnew
      · exact hinv m hold
      · obtain rfl := List.mem_singleton.mp hnew
        exact tracked_fresh req
    | _ => exact hone hs

/-- **A message is handled at most once.** -/
structure HandledOnce (C : Consumer Op Ans ε α ρ) (m : Letter Op Ans ε α ρ) : Prop where
  /-- All that was done for it is the beginning of one run, and at most its result is replied. -/
  runs : RunsOnce C m
  /-- It is acked once it is handled and replied to, -/
  acked : m.stage = .acked → Replied C m ∧ m.deliveries = 1
  /-- and goes to the dead-letter queue only after a consumer has died. -/
  dead : m.stage = .dead → 2 ≤ m.deliveries

/-- **A consumer that refuses what comes back handles each message at most once**, however
often it dies, and wherever. -/
theorem Backstop.handledOnce_of_reach (hC : C.Backstop)
    (h : Reach C.step (· = []) (fun _ _ => True) s) (hm : m ∈ s) : HandledOnce C m := by
  have htracked := hC.tracked_of_reach h m hm
  obtain ⟨req, stage, deliveries, calls, replies⟩ := m
  refine ⟨?_, ?_, ?_⟩
  · cases stage with
    | queued b =>
      cases b with
      | false =>
        obtain ⟨rfl, rfl, -⟩ := htracked
        exact ⟨_, .start, .inl rfl⟩
      | true => exact htracked.1
    | running b rest =>
      cases b with
      | false => exact ⟨rest, htracked.1, .inl htracked.2.1⟩
      | true => exact htracked.1
    | replied b =>
      cases b with
      | false => exact .of_replied htracked.1
      | true => exact htracked.elim
    | acked => exact .of_replied htracked.1
    | dead => exact htracked.1
  · rintro rfl
    exact htracked
  · rintro rfl
    exact htracked.2

end Consumer

end Ecommerce
