import Ecommerce.Common.Json
import Ecommerce.Common.Program
import Ecommerce.Messaging.Topology
import Mathlib.Algebra.Order.Ring.Nat
/-!
# The outbox relay

The two programs of order-service's relay: `connectWithRetry`, which sets
up a Kafka consumer and starts over after a backoff when that fails, and
`eachMessage`, which decodes a message of the topic, publishes it and then
reads its `orderId` for a log line. An event is a JSON value `V`, handed
on as it was parsed.
-/

namespace Ecommerce

namespace Outbox

variable {V : Type}

/-- What the relay publishes. -/
structure Relayed (V : Type) where
  exchange : Exchange
  routingKey : String
  event : V
deriving DecidableEq

/-- What the relay awaits. -/
inductive Op (V : Type)
  /-- `consumer.connect()`. -/
  | connect
  /-- `consumer.subscribe({ topic, fromBeginning })`. -/
  | subscribe (topic : String) (fromBeginning : Bool)
  /-- `consumer.run({ eachMessage })`. -/
  | run
  /-- `consumer.disconnect()`. -/
  | disconnect
  /-- `amqpConnection.publish`. -/
  | publish (p : Relayed V)

/-- What each of them resolves to. -/
@[reducible]
def Ans : Op V → Type := fun _ => Unit

/-- A computation of the relay; it throws the message of an error. -/
abbrev Prog (V : Type) := Program (Op V) Ans String

/-- Await one of them. -/
abbrev query (op : Op V) : Prog V (Ans op) := Program.await op

/-! ## Connecting -/

def topic : String := "outbox.event.Order"

def maxBackoffMs : ℕ := 30000

/-- `OutboxRelayService.connectWithRetry`, of a service that is not destroyed: `none` once
the consumer runs, and else the delay after which the next attempt is made. -/
def connectWithRetry (attempt : ℕ) : Prog V (Option ℕ) := do
  try
    query .connect
    query (.subscribe topic false)
    query .run
    pure none
  catch _ =>
    try query .disconnect catch _ => pure ()
    pure (some (min (1000 * 2 ^ attempt) maxBackoffMs))

/-- Where an attempt stands. -/
inductive ConnectPc
  | connect
  | subscribe
  | run
  | disconnect
  /-- It returned, with the delay before the next attempt. -/
  | returned (backoff : Option ℕ)
deriving DecidableEq

/-- Go on, or give the attempt up. -/
def orDisconnect (next : ConnectPc) : Except String Unit → ConnectPc
  | .ok _ => next
  | .error _ => .disconnect

/-- **The table of points.** -/
def ConnectPc.point (V : Type) (attempt : ℕ) :
    ConnectPc → Point (Op V) Ans String (Option ℕ) ConnectPc
  | .connect => .wait .connect (orDisconnect .subscribe)
  | .subscribe => .wait (.subscribe topic false) (orDisconnect .run)
  | .run => .wait .run (orDisconnect (.returned none))
  | .disconnect => .wait .disconnect fun _ =>
    .returned (some (min (1000 * 2 ^ attempt) maxBackoffMs))
  | .returned backoff => .stop (.ok backoff)

/-- The rest of an attempt that has failed. -/
def giveUp (attempt : ℕ) : Prog V (Option ℕ) := do
  try query .disconnect catch _ => pure ()
  pure (some (min (1000 * 2 ^ attempt) maxBackoffMs))

/-- The program left to run at a point. -/
def ConnectPc.code (V : Type) (attempt : ℕ) : ConnectPc → Prog V (Option ℕ)
  | .connect => connectWithRetry attempt
  | .subscribe => do
    try
      query (.subscribe topic false)
      query .run
      pure none
    catch _ => giveUp attempt
  | .run => do
    try
      query .run
      pure none
    catch _ => giveUp attempt
  | .disconnect => giveUp attempt
  | .returned backoff => pure backoff

/-- **The table of points is the attempt.** -/
theorem connect_laysOut (attempt : ℕ) :
    LaysOut (ConnectPc.point V attempt) (ConnectPc.code V attempt) := by
  intro pc
  cases pc with
  | returned backoff => rfl
  | _ =>
    refine congrArg (Program.call _) (funext fun r => ?_)
    cases r <;> rfl

/-! ## Relaying -/

/-- The event of a message: a string is parsed once more. -/
def decode (J : Json V) (value : String) : Except String V := do
  let event ← J.parse value
  match J.asString event with
  | some text => J.parse text
  | none => pure event

section Decode

variable {J : Json V} {value text : String} {event : V}

/-- A text that is no string is taken as it is parsed. -/
theorem decode_of_none (hparse : J.parse value = .ok event) (hs : J.asString event = none) :
    decode J value = .ok event := by
  unfold decode
  simp only [hparse, bind, Except.bind, hs, pure, Except.pure]

/-- A text that is a string is parsed once more. -/
theorem decode_of_some (hparse : J.parse value = .ok event) (hs : J.asString event = some text) :
    decode J value = J.parse text := by
  unfold decode
  simp only [hparse, bind, Except.bind, hs]

end Decode

/-- `order.created`. -/
def orderCreated (event : V) : Relayed V := ⟨.events, "order.created", event⟩

/-- `event.orderId`, which the log line reads. -/
def readOrderId (J : Json V) (event : V) : Except String Unit :=
  if J.isNull event then .error "Cannot read properties of null (reading 'orderId')" else .ok ()

/-- The handler `eachMessage`. -/
def eachMessage (J : Json V) (value : Option String) : Prog V Unit :=
  match value with
  | none => pure ()
  | some text => do
    let event ← Program.done (decode J text)
    query (.publish (orderCreated event))
    Program.done (readOrderId J event)

/-- Where the handler stands. -/
inductive RelayPc (V : Type)
  /-- The publish. -/
  | publish (event : V)
  | returned
  | thrown (message : String)
deriving DecidableEq

/-- How far the handler of a message gets at once. -/
def RelayPc.start (J : Json V) : Option String → RelayPc V
  | none => .returned
  | some text =>
    match decode J text with
    | .ok event => .publish event
    | .error message => .thrown message

/-- Return, or throw. -/
def orThrow : Except String Unit → RelayPc V
  | .ok _ => .returned
  | .error message => .thrown message

/-- What the publish decides. Of an event that is null no `orderId` can be read. -/
def afterPublish (J : Json V) (event : V) : Except String Unit → RelayPc V
  | .ok _ => orThrow (readOrderId J event)
  | .error message => .thrown message

/-- **The table of points.** -/
def RelayPc.point (J : Json V) : RelayPc V → Point (Op V) Ans String Unit (RelayPc V)
  | .publish event => .wait (.publish (orderCreated event)) (afterPublish J event)
  | .returned => .stop (.ok ())
  | .thrown message => .stop (.error message)

/-- The program left to run at a point. -/
def RelayPc.code (J : Json V) : RelayPc V → Prog V Unit
  | .publish event => do
    query (.publish (orderCreated event))
    Program.done (readOrderId J event)
  | .returned => pure ()
  | .thrown message => throw message

/-- **The table of points is the handler**, from where it first waits. -/
theorem relay_laysOut (J : Json V) (value : Option String) :
    LaysOut (RelayPc.point J) (RelayPc.code J) ∧
      eachMessage J value = (RelayPc.start J value).code J := by
  refine ⟨fun pc => ?_, ?_⟩
  · cases pc with
    | publish event =>
      refine congrArg (Program.call _) (funext fun r => ?_)
      cases r with
      | error message => rfl
      | ok _ =>
        change Program.done (readOrderId J event) = (orThrow (readOrderId J event)).code J
        cases readOrderId J event <;> rfl
    | _ => rfl
  · cases value with
    | none => rfl
    | some text =>
      unfold eachMessage RelayPc.start
      dsimp only
      cases decode J text <;> rfl

end Outbox

end Ecommerce
