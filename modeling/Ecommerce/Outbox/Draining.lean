import Ecommerce.Common.Ranked
import Ecommerce.Outbox.Pipeline
/-!
# What the relay gets to

The relay handles the messages of the topic one after another, and one at
which `eachMessage` throws is handed to it for ever. So it publishes
nothing behind the first such message (`published_before_of_reach`), and it
can get there from wherever it is, unless the group has no offset yet.
The messages of outbox rows are got through, and so the event of every
committed order can get to RabbitMQ (`delivers_of_reach`).
-/

namespace Ecommerce

namespace Outbox

namespace Relay

variable {V : Type} {J : Json V} {s s' : Relay V} {c d : Consumer V} {i n q : ℕ} {l : Label}

/-! ## The first message that is not got through -/

/-- The handler of a message returns, if its publish resolves. -/
def passes (J : Json V) (value : Option String) : Bool :=
  match RelayPc.start J value with
  | .publish event => (readOrderId J event).isOk
  | .returned => true
  | .thrown _ => false

/-- How many messages come before the first one that is not got through. -/
def passable (J : Json V) (log : List (Option String)) : ℕ :=
  log.findIdx fun value => !passes J value

section Passable

variable {log : List (Option String)} {value : Option String} {text : String}

theorem passes_of_ok {event : V} (h : decode J text = .ok event) :
    passes J (some text) = !J.isNull event := by
  rw [passes, RelayPc.start, h]
  change (readOrderId J event).isOk = _
  rw [readOrderId]
  cases J.isNull event <;> rfl

theorem passes_of_error {message : String} (h : decode J text = .error message) :
    passes J (some text) = false := by
  rw [passes, RelayPc.start, h]

theorem passes_some_iff : passes J (some text) = true ↔
    ∃ event, decode J text = .ok event ∧ J.isNull event = false := by
  cases hevent : decode J text with
  | error message => simp [passes_of_error hevent]
  | ok event => simp [passes_of_ok hevent]

theorem passable_le_length (J : Json V) (log : List (Option String)) :
    passable J log ≤ log.length := List.findIdx_le_length

theorem passes_of_lt (h : n < passable J log) (hvalue : log[n]? = some value) :
    passes J value = true := by
  obtain ⟨hlt, rfl⟩ := List.getElem?_eq_some_iff.mp hvalue
  simpa using List.not_of_lt_findIdx h

/-- The first message that is not got through is not. -/
theorem not_passes (hvalue : log[passable J log]? = some value) : passes J value = false := by
  simpa using List.findIdx_of_getElem?_eq_some hvalue

/-- Who is before it and gets through a message is still before it. -/
theorem lt_passable (h : n ≤ passable J log) (hvalue : log[n]? = some value)
    (hpasses : passes J value = true) : n < passable J log := by
  refine Nat.lt_of_le_of_ne h ?_
  rintro rfl
  rw [not_passes hvalue] at hpasses
  cases hpasses

theorem passable_append (value : Option String) :
    passable J log ≤ passable J (log ++ [value]) := by
  unfold passable
  rw [List.findIdx_append]
  split
  · exact Nat.le_refl _
  · exact Nat.le_trans List.findIdx_le_length (Nat.le_add_left _ _)

end Passable

/-- A consumer joins a group without a committed offset only if everything in the topic has
been published and got through. -/
def JoinsHandled (J : Json V) (s : Relay V) : Label → Prop
  | .join _ => s.committed = none → Covered s s.log.length ∧ passable J s.log = s.log.length
  | _ => True

theorem JoinsHandled.joinsCovered (h : JoinsHandled J s l) : JoinsCovered s l := by
  cases l with
  | join i => exact fun hnone => (h hnone).1
  | _ => trivial

theorem Covered.le (h : Covered s n) (hle : q ≤ n) : Covered s q :=
  fun k hk => h k (Nat.lt_of_lt_of_le hk hle)

/-- **Nobody has come past the first message that is not got through**, and nothing behind it
has been published. -/
structure Behind (J : Json V) (s : Relay V) : Prop where
  passed : ∀ position, Passed s position → position ≤ passable J s.log
  published : ∀ entry ∈ s.published, entry.1 ≤ passable J s.log

namespace Behind

theorem put (h : Behind J s)
    (hpos : ∀ position, c.stage.position = some position → position ≤ passable J s.log) :
    Behind J (s.put i c) := by
  refine ⟨fun position hpassed => ?_, h.published⟩
  rcases hpassed with hcommitted | ⟨d, hd, hd'⟩
  · exact h.passed position (.inl hcommitted)
  · rcases List.mem_or_eq_of_mem_set hd with hold | rfl
    · exact h.passed position (.inr ⟨d, hold, hd'⟩)
    · exact hpos position hd'

theorem putPolling (h : Behind J s) {resolved : Bool} (hle : q ≤ passable J s.log) :
    Behind J (s.put i { c with stage := .polling q resolved }) :=
  h.put fun position hposition => by
    obtain rfl := Option.some.inj hposition
    exact hle

theorem init (h : Behind J s) : Behind J s.init := by
  refine ⟨fun position hpassed => ?_, h.published⟩
  rcases hpassed with hcommitted | ⟨d, hd, hd'⟩
  · exact h.passed position (.inl hcommitted)
  · rcases List.mem_append.mp hd with hold | hnew
    · exact h.passed position (.inr ⟨d, hold, hd'⟩)
    · obtain rfl := List.mem_singleton.mp hnew
      cases hd'

/-- **What a move of a consumer does.** -/
theorem moves (h : Behind J s) (hdecoded : Decoded J s) {s₁ : Relay V} (hc : c ∈ s.consumers)
    (hjoins : JoinsHandled J s l) (hm : Moves J s c l s₁ d) : Behind J (s₁.put i d) := by
  have hat : ∀ {position}, c.stage.position = some position → position ≤ passable J s.log :=
    fun hposition => h.passed _ (.inr ⟨c, hc, hposition⟩)
  have hpublish : ∀ {position resolved event}, c.stage = .relaying position resolved event →
      Behind J { s with published := s.published ++ [(position, orderCreated event)] } := by
    intro position resolved event hstage
    refine ⟨h.passed, fun entry hentry => ?_⟩
    rcases List.mem_append.mp hentry with hold | hnew
    · exact h.published entry hold
    · obtain rfl := List.mem_singleton.mp hnew
      exact hat (by rw [hstage]; rfl)
  cases hm with
  | changes hpos =>
    refine h.put fun position hposition => ?_
    rw [hpos] at hposition
    cases hposition
  | joins j =>
    refine h.putPolling ?_
    unfold resumesAt
    cases hcommitted : s.committed with
    | some position => exact h.passed position (.inl hcommitted)
    | none =>
      rw [Option.getD_none]
      split
      · exact Nat.zero_le _
      · exact (hjoins hcommitted).2.ge
  | skips j hstage hvalue =>
    exact h.putPolling (lt_passable (hat (by rw [hstage]; rfl)) hvalue rfl)
  | takes j hstage hvalue hevent =>
    refine h.put fun position hposition => ?_
    obtain rfl := Option.some.inj hposition
    exact hat (by rw [hstage]; rfl)
  | relays j hstage hnull =>
    obtain ⟨text, htext, hevent⟩ := hdecoded.relaying c hc _ _ _ hstage
    exact (hpublish hstage).putPolling (lt_passable (hat (by rw [hstage]; rfl)) htext
      (passes_some_iff.mpr ⟨_, hevent, hnull⟩))
  | relaysNull j hstage hnull =>
    exact (hpublish hstage).putPolling (hat (by rw [hstage]; rfl))
  | throws resolved hposition => exact h.putPolling (hat hposition)
  | @commits j position hposition =>
    have hcommit : Behind J { s with committed := some position } := by
      refine ⟨fun position' hpassed => ?_, h.published⟩
      rcases hpassed with hcommitted | hconsumer
      · obtain rfl := Option.some.inj hcommitted
        exact hat hposition
      · exact h.passed position' (.inr hconsumer)
    exact hcommit.put fun position' hposition' => hat hposition'

/-- **Every step keeps it.** -/
theorem step (h : Behind J s) (hdecoded : Decoded J s) (hjoins : JoinsHandled J s l)
    (hs : s.step J l = some s') : Behind J s' := by
  obtain ⟨value, -, rfl⟩ | ⟨i, c, s₁, c', hc, hm, rfl | rfl⟩ | rfl := step_cases hs
  · exact ⟨fun position hpassed => (h.passed position hpassed).trans (passable_append value),
      fun entry hentry => (h.published entry hentry).trans (passable_append value)⟩
  · exact h.moves hdecoded (List.mem_of_getElem? hc) hjoins hm
  · exact (h.moves hdecoded (List.mem_of_getElem? hc) hjoins hm).init
  · exact h.init

end Behind

theorem behind_of_reach (h : Reach (step J) (· = empty) (JoinsHandled J) s) : Behind J s := by
  refine h.induct (I := Behind J) ?_ fun _ _ _ hreach hinv hl hs =>
    hinv.step (decoded_of_reach hreach) hl hs
  rintro s rfl
  refine ⟨fun position hpassed => ?_, fun entry hentry => by cases hentry⟩
  rcases hpassed with hcommitted | ⟨c, hc, -⟩
  · cases hcommitted
  · cases hc

/-- **What is published comes before the first message that is not got through**, or is that
message, which is null then. -/
theorem published_before_of_reach (h : Reach (step J) (· = empty) (JoinsHandled J) s) :
    ∀ entry ∈ s.published, entry.1 < passable J s.log ∨ entry.1 = passable J s.log ∧
      ∃ event, entry.2 = orderCreated event ∧ J.isNull event = true := by
  intro entry hentry
  rcases Nat.lt_or_eq_of_le ((behind_of_reach h).published entry hentry) with hlt | heq
  · exact .inl hlt
  · obtain ⟨event, hevent, text, htext, hdecode⟩ := (decoded_of_reach h).published entry hentry
    rw [heq] at htext
    refine .inr ⟨heq, event, hevent, ?_⟩
    cases hnull : J.isNull event with
    | true => rfl
    | false =>
      have hpasses := passes_some_iff.mpr ⟨event, hdecode, hnull⟩
      rw [not_passes htext] at hpasses
      cases hpasses

/-! ## Getting there -/

/-- The relay goes on of itself: it starts, joins at the committed offset, polls and publishes. -/
def GoesOn (s : Relay V) : Label → Prop
  | .start => True
  | .exec _ => True
  | .join _ => s.committed ≠ none
  | .poll _ => True
  | _ => False

theorem GoesOn.joinsCovered (h : s.GoesOn l) : JoinsCovered s l := by
  cases l with
  | join i => exact fun hnone => absurd hnone h
  | _ => trivial

/-- The `n`-th consumer is at an offset from `n` on. -/
def Gets (J : Json V) (s : Relay V) (n : ℕ) : Prop :=
  ∃ s', Reach (step J) (fun u => u = s) GoesOn s' ∧ s'.log = s.log ∧
    ∃ position ≥ n, Passed s' position

theorem Gets.of_step (hs : s.step J l = some s') (hl : s.GoesOn l) (hlog : s'.log = s.log)
    (h : Gets J s' n) : Gets J s n := by
  obtain ⟨u, hreach, hlog', hpassed⟩ := h
  exact ⟨u, hreach.head hl hs, hlog'.trans hlog, hpassed⟩

/-- A poll takes the message at the offset. -/
theorem step_poll {resolved : Bool} {value : Option String} (hc : s.consumers[i]? = some c)
    (hstage : c.stage = .polling q resolved) (hvalue : s.log[q]? = some value) :
    s.step J (.poll i) = some (s.put i (c.handle q resolved (.start J value))) := by
  rw [step, hc, Option.bind_some, poll, hstage]
  change s.log[q]?.map _ = _
  rw [hvalue]
  rfl

/-- A publish resolves. -/
theorem step_relay {resolved : Bool} {event : V} (hc : s.consumers[i]? = some c)
    (hstage : c.stage = .relaying q resolved event) :
    s.step J (.exec i) =
      some (put { s with published := s.published ++ [(q, orderCreated event)] } i
        (c.handle q resolved (orThrow (readOrderId J event)))) := by
  rw [step, hc, Option.bind_some, resolve, hstage]
  rfl

/-- A consumer that polls gets to the first message that is not got through. -/
theorem gets_of_polling {resolved : Bool} (hn : n ≤ passable J s.log)
    (hc : s.consumers[i]? = some c) (hstage : c.stage = .polling q resolved) : Gets J s n := by
  induction hm : n - q generalizing s c q resolved with
  | zero =>
    exact ⟨s, .start rfl, rfl, q, by omega, .inr ⟨c, List.mem_of_getElem? hc, by rw [hstage]; rfl⟩⟩
  | succ m ih =>
    have hlt : q < s.log.length := by
      have := passable_le_length J s.log
      omega
    have hnext : ∀ {s' : Relay V} {c' : Consumer V}, s'.log = s.log →
        s'.consumers[i]? = some c' → c'.stage = .polling (q + 1) true → Gets J s' n :=
      fun hlog hc' hstage' => ih (hlog ▸ hn) hc' hstage' (by omega)
    cases hvalue : s.log[q] with
    | none =>
      have hstep := step_poll (J := J) hc hstage (List.getElem?_eq_some_iff.mpr ⟨hlt, hvalue⟩)
      exact .of_step hstep trivial rfl (hnext rfl (getElem?_set_own hc) rfl)
    | some text =>
      have htext := List.getElem?_eq_some_iff.mpr ⟨hlt, hvalue⟩
      have hstep := step_poll (J := J) hc hstage htext
      obtain ⟨event, hevent, hnull⟩ := passes_some_iff.mp
        (passes_of_lt (by omega : q < passable J s.log) htext)
      rw [RelayPc.start, hevent] at hstep
      -- The event is taken, and published.
      have htaken := getElem?_set_own (a := { c with stage := .relaying q resolved event }) hc
      refine .of_step hstep trivial rfl (.of_step (step_relay htaken rfl) trivial rfl ?_)
      rw [readOrderId, hnull]
      exact hnext rfl (getElem?_set_own htaken) rfl

/-- A consumer that is at an offset gets there. -/
theorem gets_of_position (hn : n ≤ passable J s.log) (hc : s.consumers[i]? = some c)
    (hposition : c.stage.position = some q) : Gets J s n := by
  cases hstage : c.stage with
  | polling position resolved => exact gets_of_polling hn hc hstage
  | relaying position resolved event =>
    -- It publishes its event, and polls behind it or, if that is null, at it.
    refine .of_step (step_relay hc hstage) trivial rfl ?_
    cases hread : readOrderId J event with
    | ok _ => exact gets_of_polling hn (getElem?_set_own hc) rfl
    | error message => exact gets_of_polling hn (getElem?_set_own hc) rfl
  | _ => rw [hstage] at hposition; cases hposition

/-- A relay with one more consumer. -/
def seat (s : Relay V) (c : Consumer V) : Relay V := { s with consumers := s.consumers ++ [c] }

theorem getElem?_seat (c : Consumer V) :
    (s.seat c).consumers[s.consumers.length]? = some c := List.getElem?_concat_length

theorem put_seat (c c' : Consumer V) : (s.seat c).put s.consumers.length c' = s.seat c' := by
  unfold put seat
  rw [List.set_append_right _ _ (Nat.le_refl _), Nat.sub_self, List.set_cons_zero]

/-- A call of the consumer that has come last resolves. -/
theorem Gets.of_exec (h : (s.seat c).resolve J s.consumers.length c =
      some ((s.seat c).put s.consumers.length d)) (hgets : Gets J (s.seat d) n) :
    Gets J (s.seat c) n := by
  have hstep : (s.seat c).step J (.exec s.consumers.length) = some (s.seat d) := by
    rw [step, getElem?_seat, Option.bind_some, h, put_seat]
  exact hgets.of_step hstep trivial rfl

/-- A consumer that starts resumes at the committed offset. -/
theorem gets_of_committed (hn : n ≤ passable J s.log) (hcommitted : s.committed = some q) :
    Gets J s n := by
  have hstart : s.step J .start = some (s.seat .fresh) := rfl
  refine .of_step hstart trivial rfl (.of_exec (d := ⟨0, false, .connecting .subscribe⟩) rfl ?_)
  refine .of_exec (d := ⟨0, false, .connecting .run⟩) rfl ?_
  refine .of_exec (d := ⟨0, false, .joining⟩) rfl ?_
  have hresumes : (s.seat ⟨0, false, .joining⟩).resumesAt ⟨0, false, .joining⟩ = q := by
    rw [resumesAt]
    change s.committed.getD _ = q
    rw [hcommitted]
    rfl
  have hjoin : (s.seat ⟨0, false, .joining⟩).step J (.join s.consumers.length) =
      some (s.seat ⟨0, false, .polling q false⟩) := by
    rw [step, getElem?_seat, Option.bind_some, join]
    dsimp only
    rw [hresumes, put_seat]
  refine .of_step hjoin (fun hnone => ?_) rfl ?_
  · have hnone : s.committed = none := hnone
    rw [hcommitted] at hnone
    cases hnone
  · exact gets_of_polling (s := s.seat ⟨0, false, .polling q false⟩) hn (getElem?_seat _) rfl

/-- The group has an offset. -/
def Begun (s : Relay V) : Prop :=
  s.committed ≠ none ∨ ∃ c ∈ s.consumers, c.stage.position ≠ none

/-- **The relay can publish what comes before the first message that is not got through**, from
every state in which the group has an offset. -/
theorem exists_covered (h : Reach (step J) (· = empty) JoinsCovered s) (hbegun : s.Begun) :
    ∃ s', Reach (step J) (fun u => u = s) GoesOn s' ∧ s'.log = s.log ∧
      Covered s' (passable J s.log) := by
  have hgets : Gets J s (passable J s.log) → ∃ s', Reach (step J) (fun u => u = s) GoesOn s' ∧
      s'.log = s.log ∧ Covered s' (passable J s.log) := by
    rintro ⟨s', hreach, hlog, position, hle, hpassed⟩
    have hsteady := steady_of_reach (h.trans (hreach.mono fun _ _ => GoesOn.joinsCovered))
    exact ⟨s', hreach, hlog, (hsteady.passed position hpassed).2.le hle⟩
  rcases hbegun with hcommitted | ⟨c, hc, hposition⟩
  · obtain ⟨q, hq⟩ := Option.ne_none_iff_exists'.mp hcommitted
    exact hgets (gets_of_committed (Nat.le_refl _) hq)
  · obtain ⟨q, hq⟩ := Option.ne_none_iff_exists'.mp hposition
    obtain ⟨i, hi⟩ := List.getElem?_of_mem hc
    exact hgets (gets_of_position (Nat.le_refl _) hi hq)

/-- **What the relay publishes, sooner or later, are the messages before the first one that is
not got through**: in every run in which a consumer joins without an offset only if nothing is
left to handle, it publishes nothing else but that message itself, if it is null, and from
every state with an offset it can go on of itself until it has published them all. -/
theorem relays_passable_of_reach (h : Reach (step J) (· = empty) (JoinsHandled J) s) :
    (∀ entry ∈ s.published, entry.1 < passable J s.log ∨ entry.1 = passable J s.log ∧
      ∃ event, entry.2 = orderCreated event ∧ J.isNull event = true) ∧
      (s.Begun → ∃ s', Reach (step J) (fun u => u = s) GoesOn s' ∧ s'.log = s.log ∧
        Covered s' (passable J s.log)) :=
  ⟨published_before_of_reach h, exists_covered (h.mono fun _ _ => JoinsHandled.joinsCovered)⟩

instance (s : Relay V) : Decidable s.Begun :=
  inferInstanceAs (Decidable (s.committed ≠ none ∨ ∃ c ∈ s.consumers, c.stage.position ≠ none))

instance (s : Relay V) : (l : Label) → Decidable (JoinsHandled J s l)
  | .join _ => inferInstanceAs (Decidable (s.committed = none →
      Covered s s.log.length ∧ passable J s.log = s.log.length))
  | .append _ => inferInstanceAs (Decidable True)
  | .start => inferInstanceAs (Decidable True)
  | .exec _ => inferInstanceAs (Decidable True)
  | .reject _ _ => inferInstanceAs (Decidable True)
  | .retry _ => inferInstanceAs (Decidable True)
  | .poll _ => inferInstanceAs (Decidable True)
  | .commit _ => inferInstanceAs (Decidable True)
  | .crash _ _ => inferInstanceAs (Decidable True)
  | .kill _ => inferInstanceAs (Decidable True)

/-- The second message is null: it is published again and again, and the third one waits. -/
theorem relays_passable_of_null :
    ∃ s : Relay Json.Text, Reach (step Json.texts) (· = empty) (JoinsHandled Json.texts) s ∧
      s.Begun ∧ s.published.map Prod.fst = [0, 1, 1] ∧ s.log.length = 3 ∧
      (∀ entry ∈ s.published, entry.1 < passable Json.texts s.log ∨
        entry.1 = passable Json.texts s.log ∧
          ∃ event, entry.2 = orderCreated event ∧ Json.texts.isNull event = true) ∧
      (s.Begun → ∃ s', Reach (step Json.texts) (fun u => u = s) GoesOn s' ∧ s'.log = s.log ∧
        Covered s' (passable Json.texts s.log)) := by
  obtain ⟨s, hreach, hs⟩ := Reach.exists_of_follow (step Json.texts) (· = empty)
    (JoinsHandled Json.texts) rfl
    (joined 0 ++ [.append (some "{}"), .append (some "null"), .append (some "{}"), .poll 0, .exec 0,
      .commit 0, .poll 0, .exec 0, .crash 0 true, .join 0, .poll 0, .exec 0])
    (fun s => s.Begun && s.published.map Prod.fst = [0, 1, 1] && s.log.length = 3)
    (by decide +kernel)
  simp only [Bool.and_eq_true, decide_eq_true_eq] at hs
  exact ⟨s, hreach, hs.1.1, hs.1.2, hs.2, relays_passable_of_reach hreach⟩

end Relay

namespace Pipeline

open Orders (OutboxEvent)

variable {V : Type} {J : Json V} {object : OrderCreatedEvent → V} {s s' : Pipeline V}

/-! ## From the order on -/

/-- No consumer of the relay joins over what is not relayed. -/
def JoinsCovered (s : Pipeline V) : Label → Prop
  | .relay l => s.relay.JoinsCovered l
  | _ => True

/-- The row has come to the topic. -/
def Has (J : Json V) (object : OrderCreatedEvent → V) (log : List (Option String))
    (row : OutboxEvent) : Prop :=
  ∃ (p : ℕ) (twice : Bool), log[p]? = some (some (encode J object row twice))

/-- Debezium and the relay go on of themselves: a row that has no message yet is appended, and
the relay goes on. -/
def GoesOn (J : Json V) (object : OrderCreatedEvent → V) (s : Pipeline V) : Label → Prop
  | .emit k _ => ∀ row, s.outbox[k]? = some row → ¬ Has J object s.relay.log row
  | .relay l => s.relay.GoesOn l
  | _ => False

theorem GoesOn.joinsCovered {l : Label} (h : s.GoesOn J object l) : s.JoinsCovered l := by
  cases l with
  | relay l => exact Relay.GoesOn.joinsCovered h
  | _ => trivial

theorem Acts.relay {c c' : Call} (h : Acts s c s' c') : s'.relay = s.relay := by
  cases h <;> rfl

/-- What a step does to the relay. -/
theorem relay_step {l : Label} (h : s.step J object l = some s') : s'.relay = s.relay ∨
    ∃ l', (l = .relay l' ∨ ∃ value, l' = .append value) ∧ s.relay.step J l' = some s'.relay := by
  cases l with
  | createOrder dto => exact .inl (Option.some.inj h ▸ rfl)
  | exec i answer =>
    obtain ⟨c, -, h⟩ := Option.bind_eq_some_iff.mp h
    obtain ⟨s₁, c', hacts, rfl⟩ := acts_resolve h
    exact .inl hacts.relay
  | reject i message =>
    obtain ⟨c, -, h⟩ := Option.bind_eq_some_iff.mp h
    obtain ⟨c', hacts, rfl⟩ := acts_refuse h
    exact .inl hacts.relay
  | lose i message =>
    obtain ⟨c, -, h⟩ := Option.bind_eq_some_iff.mp h
    obtain ⟨s₁, c', hacts, rfl⟩ := acts_lose h
    exact .inl hacts.relay
  | crash i =>
    obtain ⟨c, -, h⟩ := Option.bind_eq_some_iff.mp h
    exact .inl (Option.some.inj h ▸ rfl)
  | emit k twice =>
    obtain ⟨row, -, h⟩ := Option.bind_eq_some_iff.mp h
    obtain ⟨relay, hrelay, rfl⟩ := Option.map_eq_some_iff.mp h
    exact .inr ⟨_, .inr ⟨_, rfl⟩, hrelay⟩
  | relay l =>
    have h : ((s.relay.step J l).map fun relay => { s with relay := relay }) = some s' := by
      cases l with
      | append value => cases h
      | _ => exact h
    obtain ⟨relay, hrelay, rfl⟩ := Option.map_eq_some_iff.mp h
    exact .inr ⟨l, .inl rfl, hrelay⟩

/-- The relay runs while the pipeline does. -/
theorem relay_of_reach (h : Reach (step J object) (· = empty) JoinsCovered s) :
    Reach (Relay.step J) (· = .empty) Relay.JoinsCovered s.relay := by
  refine h.project Pipeline.relay (fun s h0 => by rw [h0]; rfl) fun s l s' _ hl hs => ?_
  rcases relay_step hs with hsame | ⟨l', rfl | ⟨value, rfl⟩, hrelay⟩
  · exact .inl hsame
  · exact .inr ⟨l', hl, hrelay⟩
  · exact .inr ⟨.append value, trivial, hrelay⟩

/-- And it goes on while the rest waits. -/
theorem lift {relay : Relay V}
    (h : Reach (Relay.step J) (fun u => u = s.relay) Relay.GoesOn relay) :
    Reach (step J object) (fun u => u = s) (GoesOn J object) { s with relay := relay } := by
  induction h with
  | start h0 => exact .start (by rw [h0])
  | @step relay relay' l _ hl hs ih =>
    refine .step (l := .relay l) ih hl ?_
    cases l with
    | append value => exact hl.elim
    | _ => exact Option.map_eq_some_iff.mpr ⟨relay', hs, rfl⟩

/-- **Debezium can get every row to the topic**, and appends none that is there. -/
theorem exists_emitted (J : Json V) (object : OrderCreatedEvent → V) (s : Pipeline V) (n : ℕ) :
    ∃ log, Reach (step J object) (fun u => u = s) (GoesOn J object)
        { s with relay := { s.relay with log := log } } ∧
      ∀ k < n, ∀ row, s.outbox[k]? = some row → Has J object log row := by
  classical
  induction n with
  | zero => exact ⟨s.relay.log, .start rfl, fun k hk => absurd hk (Nat.not_lt_zero k)⟩
  | succ n ih =>
    obtain ⟨log, hreach, hhas⟩ := ih
    by_cases hthere : ∀ row, s.outbox[n]? = some row → Has J object log row
    · refine ⟨log, hreach, fun k hk row hrow => ?_⟩
      rcases Nat.lt_succ_iff_lt_or_eq.mp hk with hlt | rfl
      · exact hhas k hlt row hrow
      · exact hthere row hrow
    · obtain ⟨row, hrow, hmissing⟩ : ∃ row, s.outbox[n]? = some row ∧ ¬ Has J object log row := by
        simpa using hthere
      have hgoes : GoesOn J object { s with relay := { s.relay with log := log } }
          (.emit n false) := by
        intro row' hrow'
        obtain rfl := Option.some.inj (hrow.symm.trans hrow')
        exact hmissing
      refine ⟨log ++ [some (encode J object row false)], hreach.step hgoes ?_,
        fun k hk row' hrow' => ?_⟩
      · rw [step]
        change s.outbox[n]?.bind _ = _
        rw [hrow]
        rfl
      · rcases Nat.lt_succ_iff_lt_or_eq.mp hk with hlt | rfl
        · obtain ⟨p, twice, hp⟩ := hhas k hlt row' hrow'
          exact ⟨p, twice, getElem?_append_old hp⟩
        · obtain rfl : row = row' := Option.some.inj (hrow.symm.trans hrow')
          exact ⟨log.length, false, List.getElem?_concat_length⟩

/-- Rows are got through. -/
theorem passable_of_emitted (hJ : J.Lawful) (hobject : ∀ e, J.asString (object e) = none)
    (hnull : ∀ e, J.isNull (object e) = false) (h : Emitted J object s) :
    Relay.passable J s.relay.log = s.relay.log.length := by
  by_contra hne
  have hlt := Nat.lt_of_le_of_ne (Relay.passable_le_length J s.relay.log) hne
  have hvalue := List.getElem?_eq_getElem hlt
  have hstuck := Relay.not_passes hvalue
  cases htext : s.relay.log[Relay.passable J s.relay.log] with
  | none =>
    rw [htext] at hstuck
    cases hstuck
  | some text =>
    rw [htext] at hvalue hstuck
    obtain ⟨row, -, twice, rfl⟩ := h.rows _ text hvalue
    rw [Relay.passes_of_ok (decode_encode hJ hobject row twice), hnull] at hstuck
    cases hstuck

/-- The event of an order. -/
def Tells (event : OrderCreatedEvent) (o : OrderId) (order : Orders.Order) : Prop :=
  event.orderId = o ∧ event.customerId = order.customerId ∧ event.items = order.items ∧
    event.total = order.total

/-- **No committed order's event is lost** while no consumer joins a group without an offset over
what is not relayed: from every state in which the group has an offset, Debezium and the relay
can go on of themselves until `order.created` of every committed order is published, with the
order's own data. No row that has a message in the topic is appended again. -/
theorem delivers_of_reach (hJ : J.Lawful) (hobject : ∀ e, J.asString (object e) = none)
    (hnull : ∀ e, J.isNull (object e) = false)
    (h : Reach (step J object) (· = empty) JoinsCovered s) (hbegun : s.relay.Begun) :
    ∃ s', Reach (step J object) (fun u => u = s) (GoesOn J object) s' ∧ s'.orders = s.orders ∧
      ∀ o order, s.orders.lookup o = some order → ∃ event, Tells event o order ∧
        ∃ entry ∈ s'.relay.published, entry.2 = orderCreated (object event) := by
  obtain ⟨log, hemits, hhas⟩ := exists_emitted J object s s.outbox.length
  have h₁ := h.trans (hemits.mono fun _ _ => GoesOn.joinsCovered)
  obtain ⟨relay, hrelays, hlog, hcovered⟩ := Relay.exists_covered (relay_of_reach h₁) hbegun
  have hrun := hemits.trans (lift hrelays)
  have h₂ := h.trans (hrun.mono fun _ _ => GoesOn.joinsCovered)
  refine ⟨_, hrun, rfl, fun o order ho => ?_⟩
  -- The order has a row, and the row a message.
  obtain ⟨row, hrow, rfl⟩ := List.mem_map.mp ((paired_of_reach h).stored o order ho)
  obtain ⟨k, hk⟩ := List.getElem?_of_mem hrow
  obtain ⟨p, twice, hp⟩ := hhas k (List.getElem?_eq_some_iff.mp hk).1 row hk
  have hlt : p < Relay.passable J log :=
    (List.getElem?_eq_some_iff.mp hp).1.trans_eq
      (passable_of_emitted hJ hobject hnull (emitted_of_reach h₁)).symm
  have htext : relay.log[p]? = some (some (encode J object row twice)) := by rw [hlog]; exact hp
  obtain ⟨entry, hentry, rfl⟩ := List.mem_map.mp (hcovered p hlt _ htext)
  obtain ⟨event, heq, text, htext', hevent⟩ := (emitted_of_reach h₂).decoded.published entry hentry
  obtain rfl : encode J object row twice = text :=
    Option.some.inj (Option.some.inj (htext.symm.trans htext'))
  rw [decode_encode hJ hobject] at hevent
  refine ⟨row.payload, ?_, entry, hentry, heq.trans (by rw [Except.ok.inj hevent])⟩
  -- And the row repeats the order.
  obtain ⟨saved, dto, rfl, ⟨result, hmade⟩, hstored⟩ := (paired_of_reach h).recorded row hrow
  obtain ⟨-, hid, hcustomer, htotal⟩ := Orders.createOrder_eq hmade
  obtain ⟨hitems, -⟩ := Orders.createOrder_priced hmade
  obtain rfl : saved.order = order := Option.some.inj (hstored.symm.trans ho)
  exact ⟨hid, hcustomer, hitems, htotal⟩

instance (s : Pipeline V) (l : Label) : Decidable (s.JoinsCovered l) := by
  unfold JoinsCovered
  split <;> infer_instance

/-- The event of the first order is relayed and its offset committed, the relay's process dies,
and a second order is placed. -/
theorem delivers_of_kill :
    ∃ s s' : Pipeline Json.Text,
      Reach (step Json.texts eventText) (· = empty) JoinsCovered s ∧
        s.relay.published.length = 1 ∧ (s.orders.lookup "q").isSome ∧
        Reach (step Json.texts eventText) (fun u => u = s) (GoesOn Json.texts eventText) s' ∧
          s'.orders = s.orders ∧
          ∀ o order, s.orders.lookup o = some order → ∃ event, Tells event o order ∧
            ∃ entry ∈ s'.relay.published, entry.2 = orderCreated (eventText event) := by
  obtain ⟨s, hreach, hs⟩ := Reach.exists_of_follow (step Json.texts eventText) (· = empty)
    JoinsCovered rfl
    ((Relay.joined 0).map .relay ++
      [.createOrder ⟨"c", [⟨"p", 2⟩]⟩, .createOrder ⟨"d", [⟨"p", 1⟩]⟩,
        .exec 0 (.prices ⟨[("p", 100)], []⟩), .exec 0 .done, .exec 0 (.id "o"), .exec 0 .done,
        .exec 0 .done, .emit 0 true, .relay (.poll 0), .relay (.reject 0 "no channel"),
        .relay (.poll 0), .relay (.exec 0), .relay (.commit 0), .relay (.kill 0),
        .exec 1 (.prices ⟨[("p", 100)], []⟩), .exec 1 .done, .exec 1 (.id "q"), .exec 1 .done,
        .exec 1 .done])
    (fun s => s.relay.published.length = 1 && (s.orders.lookup "q").isSome && s.relay.Begun)
    (by decide +kernel)
  simp only [Bool.and_eq_true, decide_eq_true_eq] at hs
  obtain ⟨s', hrun, horders, hpublished⟩ := delivers_of_reach
    Json.lawful_texts (fun _ => rfl) isNull_eventText hreach hs.2
  exact ⟨s, s', hreach, hs.1.1, hs.1.2, hrun, horders, hpublished⟩

end Pipeline

end Outbox

end Ecommerce
