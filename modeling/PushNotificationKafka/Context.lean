import PushNotificationKafka.Rdkafka

/-! The data of the driver (push-notification-kafka-driver.h): the global shared
by all users and the context of one driver instance of one user. -/
namespace PushNotificationKafka
open Bytes

def defaultTopic : CStr := lit "dovecot"
def defaultServers : CStr := lit "localhost:9092"
def defaultPrefix : CStr := lit "$"
def defaultEvents : CStr := lit
  "FlagsClear,FlagsSet,MailboxCreate,MailboxDelete,MailboxRename,MailboxSubscribe,MailboxUnsubscribe,MessageAppend,MessageExpunge,MessageNew,MessageRead,MessageTrash"
def defaultDebug : CStr := []

/-- An `int` that is not negative; the counts and times of the global are. -/
abbrev CNat := {n : Int // 0 ≤ n ∧ n < 2 ^ 31}

/-- `struct push_notification_driver_kafka_global`. The two callbacks are constant
and only write to stderr. -/
structure Global where
  refcount : Int
  brokers : CStr
  debug : CStr
  maxRetries : CNat
  retryPollTimeInMs : CNat
  flushTimeInMs : CNat
  topicCloseTimeInMs : CNat
  destroyTimeInMs : CNat
  rkc : Option Conf
  rk : Option Producer
  user : Option UserId

structure RenderContext where
  sendFlags : Bool
  keywordPrefix : CStr

/-- `struct push_notification_driver_kafka_context`, without its memory pool. -/
structure Context where
  topic : CStr
  events : List CStr
  userdbJson : Option CStr
  enabled : Bool
  renderCtx : RenderContext
  rkt : Option Topic

/-- A `struct push_notification_driver_txn`: the user of its transaction and the
context of its driver. -/
structure DriverTxn where
  user : MailUser
  context : Context

end PushNotificationKafka
