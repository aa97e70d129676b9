import PushNotificationKafka.Dovecot
import PushNotificationKafka.Ledger

/-! The librdkafka interface. Handles are numbered by the position of their
creation in the trace of actions; a topic handle knows the producer it belongs to.
The results of librdkafka are those of an arbitrary broker, which may decide on
all that happened before. -/
namespace PushNotificationKafka

structure Conf where
  id : Nat
deriving DecidableEq, Repr

structure Producer where
  id : Nat
deriving DecidableEq, Repr

/-- A `rd_kafka_topic_t` with the producer that created it. -/
structure Topic where
  id : Nat
  rk : Option Producer
deriving DecidableEq, Repr

inductive RespErr where
  | queueFull
  | other (code : Int)
deriving DecidableEq, Repr

inductive Callback where
  | log
  | error
  | drMsg
deriving DecidableEq, Repr

/-- The calls of `rd_kafka_conf_set` in the source: one for each plugin setting,
one for the brokers and one for the debug contexts. -/
inductive SetSite where
  | setting
  | servers
  | debug
deriving DecidableEq, Repr

/-- What the plugin does outside of its own memory: calls of librdkafka with
their arguments and results, NULL handles included, and the moment it follows
`kafka_global->user` to the settings of that user. -/
inductive Action where
  | readSettings (user : UserId)
  | confNew (rkc : Conf)
  | confSetCb (rkc : Option Conf) (callback : Callback)
  | confSet (site : SetSite) (rkc : Option Conf) (name value : CStr) (accepted : Bool)
  | confDestroy (rkc : Option Conf)
  | new (rkc : Option Conf) (result : Option Producer)
  | setLogLevel (rk : Option Producer)
  | topicNew (rk : Option Producer) (topic : CStr) (result : Option Topic)
  | topicDestroy (rkt : Option Topic)
  | produce (rkt : Option Topic) (payload key : CStr) (result : Option RespErr)
  | poll (rk : Option Producer) (timeout : Int)
  | flush (rk : Option Producer) (timeout : Int)
  | destroy (rk : Option Producer)
  | waitDestroyed (timeout : Int)
deriving DecidableEq, Repr

/-- `rd_kafka_conf_set` rejects a setting that `init_global` cannot do without. -/
def refuses : Action → Bool
  | .confSet .setting _ _ _ _ => false
  | .confSet _ _ _ _ accepted => !accepted
  | _ => false

/-- `rd_kafka_new` fails. -/
def failsNew : Action → Bool
  | .new _ none => true
  | _ => false

structure Broker where
  confSet : List Action → CStr → CStr → Bool
  new : List Action → Bool
  topicNew : List Action → Bool
  produce : List Action → Option RespErr

open Ledger

/-- Ownership of producer handles. -/
def producers : Accounts Action Producer where
  acquired
    | .new _ (some rk) => some rk
    | _ => none
  released
    | .destroy (some rk) => some rk
    | _ => none
  uses
    | .setLogLevel rk | .topicNew rk _ _ | .poll rk _ | .flush rk _ | .destroy rk => some rk
    | _ => none

def topics : Accounts Action Topic where
  acquired
    | .topicNew _ _ (some rkt) => some rkt
    | _ => none
  released
    | .topicDestroy (some rkt) => some rkt
    | _ => none
  uses
    | .topicDestroy rkt | .produce rkt _ _ _ => some rkt
    | _ => none

/-- Configuration objects in the ownership of the plugin: `rd_kafka_new` takes
the object over only when it succeeds. -/
def confs : Accounts Action Conf where
  acquired
    | .confNew rkc => some rkc
    | _ => none
  released
    | .confDestroy (some rkc) | .new (some rkc) (some _) => some rkc
    | _ => none
  uses
    | .confSetCb rkc _ | .confSet _ rkc _ _ _ | .confDestroy rkc | .new rkc _ => some rkc
    | _ => none

/-- The messages that librdkafka took into its queue, with their keys. -/
def enqueued (trace : List Action) : List (CStr × CStr) :=
  trace.filterMap fun
    | .produce _ payload key none => some (payload, key)
    | _ => none

end PushNotificationKafka
