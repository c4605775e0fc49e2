import Ecommerce.Common.Machine
import Ecommerce.Common.Pool
import Ecommerce.Outbox.Model
/-!
# The relay and the topic

`Relay` is the topic's log, the offset the consumer group has committed,
and the consumers that were ever set up. A consumer that joins resumes at
the committed offset, and where there is none at an end of the log; an
offset is committed once its message has been handled. `Moves` says once
what a step can do. The relay skips no event unless a consumer joins a
group without a committed offset over events that are not relayed yet.
-/

namespace Ecommerce

namespace Outbox

/-- Where a consumer stands. -/
inductive Stage (V : Type)
  /-- `connectWithRetry` is under way. -/
  | connecting (pc : ConnectPc)
  /-- The next attempt is due after the backoff. -/
  | waiting
  /-- It runs, and has no partition yet. -/
  | joining
  /-- It is at an offset; `resolved` if it has handled a message since it joined. -/
  | polling (position : ℕ) (resolved : Bool)
  /-- It publishes the event of the message at the offset. -/
  | relaying (position : ℕ) (resolved : Bool) (event : V)
  /-- It has crashed for good, or its process has. -/
  | stopped

/-- The offset a consumer has come to. -/
def Stage.position {V : Type} : Stage V → Option ℕ
  | polling position _ => some position
  | relaying position _ _ => some position
  | _ => none

/-- A consumer. -/
structure Consumer (V : Type) where
  attempt : ℕ
  fromBeginning : Bool
  stage : Stage V

/-- The topic, the group and what was published, with the offset it was published for. -/
structure Relay (V : Type) where
  log : List (Option String)
  committed : Option ℕ
  consumers : List (Consumer V)
  published : List (ℕ × Relayed V)

/-- A step. -/
inductive Label
  /-- A message is appended to the topic. -/
  | append (value : Option String)
  /-- `onModuleInit`. -/
  | start
  /-- What the `i`-th consumer awaits resolves. -/
  | exec (i : ℕ)
  /-- What it awaits rejects. -/
  | reject (i : ℕ) (message : String)
  /-- Its backoff is over. -/
  | retry (i : ℕ)
  /-- It is assigned the partition. -/
  | join (i : ℕ)
  /-- It is handed the message at its offset. -/
  | poll (i : ℕ)
  /-- Its offset is committed. -/
  | commit (i : ℕ)
  /-- It crashes; kafkajs restarts it, or the listener connects anew. -/
  | crash (i : ℕ) (restart : Bool)
  /-- Its process dies. -/
  | kill (i : ℕ)

namespace Consumer

variable {V : Type}

/-- A consumer of the first attempt. -/
def fresh : Consumer V := ⟨0, false, .connecting .connect⟩

/-- A call has resolved. -/
def heard (c : Consumer V) : Op V → Consumer V
  | .subscribe _ fromBeginning => { c with fromBeginning := fromBeginning }
  | _ => c

/-- `connectWithRetry` goes on. -/
def connect (c : Consumer V) : ConnectPc → Consumer V
  | .returned none => { c with stage := .joining }
  | .returned (some _) => { c with stage := .waiting }
  | pc => { c with stage := .connecting pc }

/-- `eachMessage` goes on. A message whose handler has thrown is not resolved. -/
def handle (c : Consumer V) (position : ℕ) (resolved : Bool) : RelayPc V → Consumer V
  | .publish event => { c with stage := .relaying position resolved event }
  | .returned => { c with stage := .polling (position + 1) true }
  | .thrown _ => { c with stage := .polling position resolved }

end Consumer

namespace Relay

variable {V : Type}

/-- Before the first order, and before the first start. -/
def empty : Relay V := ⟨[], none, [], []⟩

def put (s : Relay V) (i : ℕ) (c : Consumer V) : Relay V :=
  { s with consumers := s.consumers.set i c }

/-- `connectWithRetry()`. -/
def init (s : Relay V) : Relay V := { s with consumers := s.consumers ++ [.fresh] }

/-- Where a consumer resumes. -/
def resumesAt (s : Relay V) (c : Consumer V) : ℕ :=
  s.committed.getD (if c.fromBeginning then 0 else s.log.length)

/-- What a consumer awaits resolves. -/
def resolve (J : Json V) (s : Relay V) (i : ℕ) (c : Consumer V) : Option (Relay V) :=
  match c.stage with
  | .connecting pc =>
    match pc.point V c.attempt with
    | .stop _ => none
    | .wait op next => some (s.put i ((c.heard op).connect (next (.ok ()))))
  | .relaying position resolved event =>
    match (RelayPc.publish event).point J with
    | .wait (.publish p) next =>
      some (put { s with published := s.published ++ [(position, p)] } i
        (c.handle position resolved (next (.ok ()))))
    | _ => none
  | _ => none

/-- What it awaits rejects. -/
def refuse (J : Json V) (s : Relay V) (i : ℕ) (c : Consumer V) (message : String) :
    Option (Relay V) :=
  match c.stage with
  | .connecting pc =>
    match pc.point V c.attempt with
    | .stop _ => none
    | .wait _ next => some (s.put i (c.connect (next (.error message))))
  | .relaying position resolved event =>
    match (RelayPc.publish event).point J with
    | .wait _ next => some (s.put i (c.handle position resolved (next (.error message))))
    | _ => none
  | _ => none

/-- The timer of the backoff fires. -/
def retry (s : Relay V) (i : ℕ) (c : Consumer V) : Option (Relay V) :=
  match c.stage with
  | .waiting => some (s.put i { c with attempt := c.attempt + 1, stage := .connecting .connect })
  | _ => none

/-- The group assigns the partition. -/
def join (s : Relay V) (i : ℕ) (c : Consumer V) : Option (Relay V) :=
  match c.stage with
  | .joining => some (s.put i { c with stage := .polling (s.resumesAt c) false })
  | _ => none

/-- The next message is handed to `eachMessage`. -/
def poll (J : Json V) (s : Relay V) (i : ℕ) (c : Consumer V) : Option (Relay V) :=
  match c.stage with
  | .polling position resolved => s.log[position]?.map fun value =>
      s.put i (c.handle position resolved (.start J value))
  | _ => none

/-- The offset of the messages handled so far is committed. -/
def commit (s : Relay V) (c : Consumer V) : Option (Relay V) :=
  match c.stage with
  | .polling position true => some { s with committed := some position }
  | .relaying position true _ => some { s with committed := some position }
  | _ => none

/-- The consumer crashes. -/
def crash (s : Relay V) (i : ℕ) (c : Consumer V) (restart : Bool) : Option (Relay V) :=
  match c.stage with
  | .connecting _ => none
  | .waiting => none
  | .stopped => none
  | _ =>
    if restart then some (s.put i { c with stage := .joining })
    else some (s.put i { c with stage := .stopped }).init

/-- A step. -/
def step (J : Json V) (s : Relay V) : Label → Option (Relay V)
  | .append value => some { s with log := s.log ++ [value] }
  | .start => some s.init
  | .exec i => s.consumers[i]?.bind fun c => s.resolve J i c
  | .reject i message => s.consumers[i]?.bind fun c => s.refuse J i c message
  | .retry i => s.consumers[i]?.bind fun c => s.retry i c
  | .join i => s.consumers[i]?.bind fun c => s.join i c
  | .poll i => s.consumers[i]?.bind fun c => s.poll J i c
  | .commit i => s.consumers[i]?.bind fun c => s.commit c
  | .crash i restart => s.consumers[i]?.bind fun c => s.crash i c restart
  | .kill i => s.consumers[i]?.bind fun c => some (s.put i { c with stage := .stopped })

/-! ## What a step can do -/

/-- **What a step does to the consumer it is about**, and to the rest. -/
inductive Moves (J : Json V) (s : Relay V) (c : Consumer V) : Label → Relay V → Consumer V → Prop
  /-- It is set up, given up or stopped. -/
  | changes {l : Label} {c' : Consumer V} (hpos : c'.stage.position = none) : Moves J s c l s c'
  /-- It resumes. -/
  | joins (i : ℕ) : Moves J s c (.join i) s { c with stage := .polling (s.resumesAt c) false }
  /-- The message has no value. -/
  | skips (i : ℕ) {position : ℕ} {resolved : Bool} (h : c.stage = .polling position resolved)
      (hvalue : s.log[position]? = some none) :
      Moves J s c (.poll i) s { c with stage := .polling (position + 1) true }
  /-- The message is decoded. -/
  | takes (i : ℕ) {position : ℕ} {resolved : Bool} {text : String} {event : V}
      (h : c.stage = .polling position resolved) (hvalue : s.log[position]? = some (some text))
      (hevent : decode J text = .ok event) :
      Moves J s c (.poll i) s { c with stage := .relaying position resolved event }
  /-- The event is published. -/
  | relays (i : ℕ) {position : ℕ} {resolved : Bool} {event : V}
      (h : c.stage = .relaying position resolved event) (hnull : J.isNull event = false) :
      Moves J s c (.exec i)
        { s with published := s.published ++ [(position, orderCreated event)] }
        { c with stage := .polling (position + 1) true }
  /-- Null is published, and then the handler throws. -/
  | relaysNull (i : ℕ) {position : ℕ} {resolved : Bool} {event : V}
      (h : c.stage = .relaying position resolved event) (hnull : J.isNull event = true) :
      Moves J s c (.exec i)
        { s with published := s.published ++ [(position, orderCreated event)] }
        { c with stage := .polling position resolved }
  /-- The handler throws, and the consumer is where it was. -/
  | throws {l : Label} {position : ℕ} (resolved : Bool) (h : c.stage.position = some position) :
      Moves J s c l s { c with stage := .polling position resolved }
  /-- Its offset is committed. -/
  | commits (i : ℕ) {position : ℕ} (h : c.stage.position = some position) :
      Moves J s c (.commit i) { s with committed := some position } c

variable {J : Json V} {s s' : Relay V} {c : Consumer V} {i : ℕ} {l : Label}

theorem position_connect (c : Consumer V) (pc : ConnectPc) :
    (c.connect pc).stage.position = none := by
  cases pc with
  | returned backoff => cases backoff <;> rfl
  | _ => rfl

theorem moves_resolve (h : s.resolve J i c = some s') :
    ∃ s₁ c', Moves J s c (.exec i) s₁ c' ∧ s' = s₁.put i c' := by
  unfold resolve at h
  split at h
  · split at h
    · cases h
    · exact ⟨_, _, .changes (position_connect _ _), (Option.some.inj h).symm⟩
  · rename_i position resolved event hstage
    have h : some (put { s with published := s.published ++ [(position, orderCreated event)] } i
      (c.handle position resolved (orThrow (readOrderId J event)))) = some s' := h
    rw [readOrderId] at h
    cases hnull : J.isNull event with
    | true =>
      rw [hnull] at h
      exact ⟨_, _, .relaysNull i hstage hnull, (Option.some.inj h).symm⟩
    | false =>
      rw [hnull] at h
      exact ⟨_, _, .relays i hstage hnull, (Option.some.inj h).symm⟩
  · cases h

theorem moves_refuse {message : String} (h : s.refuse J i c message = some s') :
    ∃ s₁ c', Moves J s c (.reject i message) s₁ c' ∧ s' = s₁.put i c' := by
  unfold refuse at h
  split at h
  · split at h
    · cases h
    · exact ⟨_, _, .changes (position_connect _ _), (Option.some.inj h).symm⟩
  · rename_i position resolved event hstage
    exact ⟨_, _, .throws resolved (by rw [hstage]; rfl), (Option.some.inj h).symm⟩
  · cases h

theorem moves_poll (h : s.poll J i c = some s') :
    ∃ s₁ c', Moves J s c (.poll i) s₁ c' ∧ s' = s₁.put i c' := by
  unfold poll at h
  split at h
  · rename_i position resolved hstage
    obtain ⟨value, hvalue, rfl⟩ := Option.map_eq_some_iff.mp h
    cases value with
    | none => exact ⟨_, _, .skips i hstage hvalue, rfl⟩
    | some text =>
      rw [RelayPc.start]
      cases hevent : decode J text with
      | ok event => exact ⟨_, _, .takes i hstage hvalue hevent, rfl⟩
      | error message => exact ⟨_, _, .throws resolved (by rw [hstage]; rfl), rfl⟩
  · cases h

theorem moves_commit (h : s.commit c = some s') (hi : s.consumers[i]? = some c) :
    ∃ s₁ c', Moves J s c (.commit i) s₁ c' ∧ s' = s₁.put i c' := by
  have hsame : s.consumers.set i c = s.consumers := by
    obtain ⟨hlt, rfl⟩ := List.getElem?_eq_some_iff.mp hi
    exact List.set_getElem_self hlt
  have hput : ∀ position : ℕ, { s with committed := some position } =
      put { s with committed := some position } i c := fun position => by
    unfold put
    rw [hsame]
  unfold commit at h
  split at h
  · rename_i position hstage
    exact ⟨_, _, .commits i (by rw [hstage]; rfl), (Option.some.inj h).symm.trans (hput position)⟩
  · rename_i position event hstage
    exact ⟨_, _, .commits i (by rw [hstage]; rfl), (Option.some.inj h).symm.trans (hput position)⟩
  · cases h

/-- **What a step can do.** -/
theorem step_cases (h : s.step J l = some s') :
    (∃ value, l = .append value ∧ s' = { s with log := s.log ++ [value] }) ∨
    (∃ i c s₁ c', s.consumers[i]? = some c ∧ Moves J s c l s₁ c' ∧
      (s' = s₁.put i c' ∨ s' = (s₁.put i c').init)) ∨ s' = s.init := by
  -- Every label but `append` and `start` is about one consumer.
  have hact : ∀ {i : ℕ} {f : Consumer V → Option (Relay V)},
      (∀ {c s'}, s.consumers[i]? = some c → f c = some s' →
        ∃ s₁ c', Moves J s c l s₁ c' ∧ (s' = s₁.put i c' ∨ s' = (s₁.put i c').init)) →
      s.consumers[i]?.bind f = some s' →
      ∃ i c s₁ c', s.consumers[i]? = some c ∧ Moves J s c l s₁ c' ∧
        (s' = s₁.put i c' ∨ s' = (s₁.put i c').init) := by
    intro i f hf hs
    obtain ⟨c, hc, hfc⟩ := Option.bind_eq_some_iff.mp hs
    obtain ⟨s₁, c', hmoves, hput⟩ := hf hc hfc
    exact ⟨i, c, s₁, c', hc, hmoves, hput⟩
  cases l with
  | append value => exact .inl ⟨value, rfl, (Option.some.inj h).symm⟩
  | start => exact .inr (.inr (Option.some.inj h).symm)
  | exec i =>
    refine .inr (.inl (hact (fun _ hs => ?_) h))
    obtain ⟨s₁, c', hmoves, hput⟩ := moves_resolve hs
    exact ⟨s₁, c', hmoves, .inl hput⟩
  | reject i message =>
    refine .inr (.inl (hact (fun _ hs => ?_) h))
    obtain ⟨s₁, c', hmoves, hput⟩ := moves_refuse hs
    exact ⟨s₁, c', hmoves, .inl hput⟩
  | retry i =>
    refine .inr (.inl (hact (fun _ hs => ?_) h))
    unfold retry at hs
    split at hs
    · exact ⟨_, _, .changes rfl, .inl (Option.some.inj hs).symm⟩
    · cases hs
  | join i =>
    refine .inr (.inl (hact (fun _ hs => ?_) h))
    unfold join at hs
    split at hs
    · exact ⟨_, _, .joins i, .inl (Option.some.inj hs).symm⟩
    · cases hs
  | poll i =>
    refine .inr (.inl (hact (fun _ hs => ?_) h))
    obtain ⟨s₁, c', hmoves, hput⟩ := moves_poll hs
    exact ⟨s₁, c', hmoves, .inl hput⟩
  | commit i =>
    refine .inr (.inl (hact (fun hc hs => ?_) h))
    obtain ⟨s₁, c', hmoves, hput⟩ := moves_commit hs hc
    exact ⟨s₁, c', hmoves, .inl hput⟩
  | crash i restart =>
    refine .inr (.inl (hact (fun _ hs => ?_) h))
    unfold crash at hs
    split at hs
    · cases hs
    · cases hs
    · cases hs
    · cases restart with
      | true => exact ⟨_, _, .changes rfl, .inl (Option.some.inj hs).symm⟩
      | false => exact ⟨_, _, .changes rfl, .inr (Option.some.inj hs).symm⟩
  | kill i =>
    refine .inr (.inl (hact (fun _ hs => ?_) h))
    exact ⟨_, _, .changes rfl, .inl (Option.some.inj hs).symm⟩

/-- **Only an append changes the topic.** -/
theorem log_step (h : s.step J l = some s') (hl : ∀ value, l ≠ .append value) :
    s'.log = s.log := by
  have hmoves : ∀ {s₁ : Relay V} {c c' : Consumer V}, Moves J s c l s₁ c' → s₁.log = s.log := by
    intro s₁ c c' hm
    cases hm <;> rfl
  obtain ⟨value, heq, -⟩ | ⟨i, c, s₁, c', -, hm, rfl | rfl⟩ | rfl := step_cases h
  · exact absurd heq (hl value)
  · exact (hmoves hm : s₁.log = s.log)
  · exact (hmoves hm : s₁.log = s.log)
  · rfl

/-! ## What has been relayed -/

/-- Every message with a value below an offset has been published. -/
def Covered (s : Relay V) (position : ℕ) : Prop :=
  ∀ k < position, ∀ text, s.log[k]? = some (some text) → k ∈ s.published.map Prod.fst

/-- The group has come to an offset: it has committed it, or a consumer is there. -/
def Passed (s : Relay V) (position : ℕ) : Prop :=
  s.committed = some position ∨ ∃ c ∈ s.consumers, c.stage.position = some position

/-- **No event is skipped.** -/
def NoneSkipped (s : Relay V) : Prop := ∀ position, Passed s position → Covered s position

/-- A consumer joins a group without a committed offset only if everything in the topic has
been published. -/
def JoinsCovered (s : Relay V) : Label → Prop
  | .join _ => s.committed = none → Covered s s.log.length
  | _ => True

/-- **The invariant of the offsets.** -/
structure Steady (s : Relay V) : Prop where
  passed : ∀ position, Passed s position → position ≤ s.log.length ∧ Covered s position
  relaying : ∀ c ∈ s.consumers, ∀ position resolved event,
    c.stage = .relaying position resolved event → position < s.log.length

namespace Steady

/-- A consumer goes on, at an offset that is covered. -/
theorem put (h : Steady s) {c' : Consumer V}
    (hpos : ∀ position, c'.stage.position = some position →
      position ≤ s.log.length ∧ Covered s position)
    (hrelaying : ∀ position resolved event, c'.stage = .relaying position resolved event →
      position < s.log.length) : Steady (s.put i c') := by
  refine ⟨fun position hpassed => ?_, fun d hd => ?_⟩
  · rcases hpassed with hcommitted | ⟨d, hd, hd'⟩
    · exact h.passed position (.inl hcommitted)
    · rcases List.mem_or_eq_of_mem_set hd with hold | rfl
      · exact h.passed position (.inr ⟨d, hold, hd'⟩)
      · exact hpos position hd'
  · rcases List.mem_or_eq_of_mem_set hd with hold | rfl
    · exact h.relaying d hold
    · exact hrelaying

/-- A consumer that has no offset. -/
theorem putNone (h : Steady s) {c' : Consumer V} (hpos : c'.stage.position = none) :
    Steady (s.put i c') := by
  refine h.put (fun position hposition => ?_) fun position resolved event hstage => ?_
  · rw [hpos] at hposition
    cases hposition
  · rw [hstage] at hpos
    cases hpos

/-- A consumer that polls at an offset. -/
theorem putPolling (h : Steady s) {c' : Consumer V} {position : ℕ} {resolved : Bool}
    (hstage : c'.stage = .polling position resolved) (hle : position ≤ s.log.length)
    (hcovered : Covered s position) : Steady (s.put i c') := by
  refine h.put (fun position' hposition => ?_) fun position resolved event hcon => ?_
  · rw [hstage] at hposition
    obtain rfl := Option.some.inj hposition
    exact ⟨hle, hcovered⟩
  · rw [hstage] at hcon
    cases hcon

theorem init (h : Steady s) : Steady s.init := by
  refine ⟨fun position hpassed => ?_, fun d hd => ?_⟩
  · rcases hpassed with hcommitted | ⟨d, hd, hd'⟩
    · exact h.passed position (.inl hcommitted)
    · rcases List.mem_append.mp hd with hold | hnew
      · exact h.passed position (.inr ⟨d, hold, hd'⟩)
      · obtain rfl := List.mem_singleton.mp hnew
        cases hd'
  · rcases List.mem_append.mp hd with hold | hnew
    · exact h.relaying d hold
    · obtain rfl := List.mem_singleton.mp hnew
      intro position resolved event hstage
      cases hstage

/-- The topic grows. -/
theorem append (h : Steady s) (value : Option String) :
    Steady { s with log := s.log ++ [value] } := by
  have hlength : (s.log ++ [value]).length = s.log.length + 1 := List.length_append
  refine ⟨fun position hpassed => ?_, fun d hd position resolved event hstage => ?_⟩
  · obtain ⟨hle, hcovered⟩ := h.passed position hpassed
    refine ⟨by rw [hlength]; omega, fun k hk text htext => hcovered k hk text ?_⟩
    have htext : (s.log ++ [value])[k]? = some (some text) := htext
    rwa [List.getElem?_append_left (by omega)] at htext
  · have := h.relaying d hd position resolved event hstage
    change position < (s.log ++ [value]).length
    omega

/-- The message at an offset is published. -/
theorem publish (h : Steady s) (position : ℕ) (p : Relayed V) :
    Steady { s with published := s.published ++ [(position, p)] } := by
  refine ⟨fun position' hpassed => ?_, h.relaying⟩
  obtain ⟨hle, hcovered⟩ := h.passed position' hpassed
  refine ⟨hle, fun k hk text htext => ?_⟩
  rw [List.map_append]
  exact List.mem_append_left _ (hcovered k hk text htext)

/-- **What a move of a consumer does.** -/
theorem moves (h : Steady s) {s₁ : Relay V} {c' : Consumer V} (hc : c ∈ s.consumers)
    (hjoins : JoinsCovered s l) (hm : Moves J s c l s₁ c') : Steady (s₁.put i c') := by
  have hat : ∀ {position}, c.stage.position = some position →
      position ≤ s.log.length ∧ Covered s position := fun hposition =>
    h.passed _ (.inr ⟨c, hc, hposition⟩)
  cases hm with
  | changes hpos => exact h.putNone hpos
  | joins j =>
    have hresumes : s.resumesAt c ≤ s.log.length ∧ Covered s (s.resumesAt c) := by
      unfold resumesAt
      cases hcommitted : s.committed with
      | some position => exact h.passed position (.inl hcommitted)
      | none =>
        -- There is nothing to resume at: the consumer begins at an end of the log.
        rw [Option.getD_none]
        split
        · exact ⟨Nat.zero_le _, fun k hk => absurd hk (Nat.not_lt_zero k)⟩
        · exact ⟨Nat.le_refl _, hjoins hcommitted⟩
    exact h.putPolling rfl hresumes.1 hresumes.2
  | @skips j position resolved hstage hvalue =>
    -- The message it moves past has no value.
    obtain ⟨hle, hcovered⟩ := hat (by rw [hstage]; rfl : c.stage.position = some position)
    refine h.putPolling rfl ?_ fun k hk text htext => ?_
    · have := (List.getElem?_eq_some_iff.mp hvalue).1
      omega
    · rcases Nat.lt_succ_iff_lt_or_eq.mp hk with hlt | rfl
      · exact hcovered k hlt text htext
      · rw [hvalue] at htext
        cases htext
  | @takes j position resolved text event hstage hvalue hevent =>
    refine h.put (fun position' hposition => ?_) fun position' resolved' event' heq => ?_
    · obtain rfl := Option.some.inj hposition
      exact hat (by rw [hstage]; rfl)
    · obtain ⟨rfl, -, -⟩ := Stage.relaying.inj heq
      exact (List.getElem?_eq_some_iff.mp hvalue).1
  | @relaysNull j position resolved event hstage hnull =>
    have hnext := h.publish position (orderCreated event)
    obtain ⟨hle, hcovered⟩ := hnext.passed position (.inr ⟨c, hc, by rw [hstage]; rfl⟩)
    exact hnext.putPolling rfl hle hcovered
  | @relays j position resolved event hstage hnull =>
    -- The offset moves past a message that is published now.
    obtain ⟨-, hcovered⟩ := hat (by rw [hstage]; rfl : c.stage.position = some position)
    have hlt := h.relaying c hc position resolved event hstage
    refine (h.publish position _).putPolling rfl hlt fun k hk text htext => ?_
    rw [List.map_append]
    rcases Nat.lt_succ_iff_lt_or_eq.mp hk with hlt | rfl
    · exact List.mem_append_left _ (hcovered k hlt text htext)
    · exact List.mem_append_right _ (List.mem_singleton_self k)
  | throws resolved hposition =>
    obtain ⟨hle, hcovered⟩ := hat hposition
    exact h.putPolling rfl hle hcovered
  | @commits j position hposition =>
    have hcommit : Steady { s with committed := some position } := by
      refine ⟨fun position' hpassed => ?_, h.relaying⟩
      rcases hpassed with hcommitted | hconsumer
      · obtain rfl := Option.some.inj hcommitted
        exact hat hposition
      · exact h.passed position' (.inr hconsumer)
    refine hcommit.put (fun position' hposition' => ?_) (h.relaying c hc)
    exact hat hposition'

/-- **Every step keeps the invariant**, unless a consumer joins over what is not relayed. -/
theorem step (h : Steady s) (hjoins : JoinsCovered s l) (hs : s.step J l = some s') :
    Steady s' := by
  obtain ⟨value, -, rfl⟩ | ⟨i, c, s₁, c', hc, hmoves, rfl | rfl⟩ | rfl := step_cases hs
  · exact h.append value
  · exact h.moves (List.mem_of_getElem? hc) hjoins hmoves
  · exact (h.moves (List.mem_of_getElem? hc) hjoins hmoves).init
  · exact h.init

theorem of_empty : Steady (empty : Relay V) := by
  refine ⟨fun position hpassed => ?_, fun c hc => by cases hc⟩
  rcases hpassed with hcommitted | ⟨c, hc, -⟩
  · cases hcommitted
  · cases hc

end Steady

theorem steady_of_reach (h : Reach (step J) (· = empty) JoinsCovered s) : Steady s :=
  h.invariant_from .of_empty fun _ _ _ hinv hg hs => hinv.step hg hs

/-- **The relay skips no event**, in every run in which a consumer joins without a committed
offset only if everything in the topic has been published. -/
theorem noneSkipped_of_reach (h : Reach (step J) (· = empty) JoinsCovered s) : NoneSkipped s :=
  fun position hpassed => ((steady_of_reach h).passed position hpassed).2

/-! ## What is relayed -/

/-- The message at an offset decodes to an event. -/
def Carries (J : Json V) (s : Relay V) (position : ℕ) (event : V) : Prop :=
  ∃ text, s.log[position]? = some (some text) ∧ decode J text = .ok event

/-- **The invariant of the events**: what is published, or about to be, was decoded from the
message at its offset. -/
structure Decoded (J : Json V) (s : Relay V) : Prop where
  published : ∀ entry ∈ s.published, ∃ event, entry.2 = orderCreated event ∧
    Carries J s entry.1 event
  relaying : ∀ c ∈ s.consumers, ∀ position resolved event,
    c.stage = .relaying position resolved event → Carries J s position event

namespace Decoded

theorem put (h : Decoded J s) {c' : Consumer V}
    (hrelaying : ∀ position resolved event, c'.stage = .relaying position resolved event →
      Carries J s position event) : Decoded J (s.put i c') := by
  refine ⟨h.published, fun d hd => ?_⟩
  rcases List.mem_or_eq_of_mem_set hd with hold | rfl
  · exact h.relaying d hold
  · exact hrelaying

theorem init (h : Decoded J s) : Decoded J s.init := by
  refine ⟨h.published, fun d hd => ?_⟩
  rcases List.mem_append.mp hd with hold | hnew
  · exact h.relaying d hold
  · obtain rfl := List.mem_singleton.mp hnew
    intro position resolved event hstage
    cases hstage

theorem moves (h : Decoded J s) {s₁ : Relay V} {c' : Consumer V} (hc : c ∈ s.consumers)
    (hm : Moves J s c l s₁ c') : Decoded J (s₁.put i c') := by
  have hpublish : ∀ {position resolved event}, c.stage = .relaying position resolved event →
      Decoded J { s with published := s.published ++ [(position, orderCreated event)] } := by
    intro position resolved event hstage
    refine ⟨fun entry hentry => ?_, h.relaying⟩
    rcases List.mem_append.mp hentry with hold | hnew
    · exact h.published entry hold
    · obtain rfl := List.mem_singleton.mp hnew
      exact ⟨event, rfl, h.relaying c hc position resolved event hstage⟩
  cases hm with
  | changes hpos =>
    refine h.put fun position resolved event hstage => ?_
    rw [hstage] at hpos
    cases hpos
  | joins j => exact h.put fun position resolved event hstage => by cases hstage
  | skips j hstage hvalue => exact h.put fun position resolved event hstage => by cases hstage
  | @takes j position resolved text event hstage hvalue hevent =>
    refine h.put fun position' resolved' event' heq => ?_
    obtain ⟨rfl, -, rfl⟩ := Stage.relaying.inj heq
    exact ⟨text, hvalue, hevent⟩
  | relays j hstage hnull =>
    exact (hpublish hstage).put fun position resolved event hcon => by cases hcon
  | relaysNull j hstage hnull =>
    exact (hpublish hstage).put fun position resolved event hcon => by cases hcon
  | throws resolved hposition =>
    exact h.put fun position resolved event hstage => by cases hstage
  | @commits j position hposition =>
    have hnext : Decoded J { s with committed := some position } := ⟨h.published, h.relaying⟩
    exact hnext.put (h.relaying c hc)

/-- **Every step keeps the invariant**: the topic only grows. -/
theorem step (h : Decoded J s) (hs : s.step J l = some s') : Decoded J s' := by
  obtain ⟨value, -, rfl⟩ | ⟨i, c, s₁, c', hc, hmoves, rfl | rfl⟩ | rfl := step_cases hs
  · have hkeeps : ∀ {position event}, Carries J s position event →
        Carries J { s with log := s.log ++ [value] } position event := by
      rintro position event ⟨text, htext, hevent⟩
      exact ⟨text, getElem?_append_old htext, hevent⟩
    refine ⟨fun entry hentry => ?_, fun d hd position resolved event hstage =>
      hkeeps (h.relaying d hd position resolved event hstage)⟩
    obtain ⟨event, heq, hcarries⟩ := h.published entry hentry
    exact ⟨event, heq, hkeeps hcarries⟩
  · exact h.moves (List.mem_of_getElem? hc) hmoves
  · exact (h.moves (List.mem_of_getElem? hc) hmoves).init
  · exact h.init

theorem of_empty (J : Json V) : Decoded J (empty : Relay V) :=
  ⟨fun _ h => (by cases h), fun _ h => (by cases h)⟩

end Decoded

theorem decoded_of_reach {guard : Relay V → Label → Prop}
    (h : Reach (step J) (· = empty) guard s) : Decoded J s :=
  h.invariant_from (.of_empty J) fun _ _ _ hinv _ hs => hinv.step hs

/-! ## Runs -/

instance (s : Relay V) (position : ℕ) : Decidable (Covered s position) :=
  decidable_of_iff (∀ k < position, ∀ text ∈ s.log[k]?.join, k ∈ s.published.map Prod.fst)
    (by simp [Covered, Option.join_eq_some_iff])

instance (s : Relay V) : DecidablePred (JoinsCovered s) := fun l => by
  cases l <;> unfold JoinsCovered <;> infer_instance

/-- The service starts, and its consumer joins the group. -/
def joined (i : ℕ) : List Label := [.start, .exec i, .exec i, .exec i, .join i]

/-- An order is relayed, its offset committed, the service crashes, and the next order is
relayed after the restart. -/
theorem noneSkipped_of_restart :
    ∃ s : Relay Json.Text, Reach (step Json.texts) (· = empty) JoinsCovered s ∧
      Passed s 2 ∧ NoneSkipped s := by
  obtain ⟨s, hreach, hs⟩ := Reach.exists_of_follow (step Json.texts) (· = empty) JoinsCovered rfl
    (joined 0 ++ [.append (some "{}"), .poll 0, .reject 0 "no channel", .poll 0, .exec 0, .commit 0,
      .kill 0, .append (some "{}")] ++ joined 1 ++ [.poll 1, .exec 1, .commit 1])
    (fun s => s.committed = some 2) (by decide +kernel)
  exact ⟨s, hreach, .inl (of_decide_eq_true hs), noneSkipped_of_reach hreach⟩

/-- An order is committed before the relay has ever joined: its event is skipped. -/
theorem not_noneSkipped_of_first_start : ¬ ∀ s : Relay Json.Text,
    Reach (step Json.texts) (· = empty) (fun _ _ => True) s → NoneSkipped s := by
  intro h
  obtain ⟨s, hreach, hs⟩ := Reach.exists_of_follow (step Json.texts) (· = empty) (fun _ _ => True) rfl
    (.append (some "{}") :: joined 0)
    (fun s => s.consumers.any (fun c => c.stage.position = some 1) && s.log = [some "{}"] &&
      s.published.isEmpty) (by decide +kernel)
  simp only [Bool.and_eq_true, List.any_eq_true, decide_eq_true_eq, List.isEmpty_iff] at hs
  obtain ⟨⟨⟨c, hc, hposition⟩, hlog⟩, hnone⟩ := hs
  have hmem := h s hreach 1 (.inr ⟨c, hc, hposition⟩) 0 Nat.one_pos "{}" (by rw [hlog]; rfl)
  rw [hnone] at hmem
  cases hmem

end Relay

end Outbox

end Ecommerce
