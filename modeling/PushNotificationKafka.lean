import PushNotificationKafka.Json.Decoder
import PushNotificationKafka.Json.Soundness
import PushNotificationKafka.Json.Completeness
import PushNotificationKafka.Json.Writer
import PushNotificationKafka.Format
import PushNotificationKafka.Time.Calendar
import PushNotificationKafka.Time.Iso8601
import PushNotificationKafka.Dovecot
import PushNotificationKafka.Ledger
import PushNotificationKafka.Rdkafka
import PushNotificationKafka.Transition
import PushNotificationKafka.Context
import PushNotificationKafka.Event
import PushNotificationKafka.EventJson
import PushNotificationKafka.MailboxJson
import PushNotificationKafka.Calls
import PushNotificationKafka.Lifecycle
import PushNotificationKafka.Coherence
import PushNotificationKafka.Handles
import PushNotificationKafka.Configuration
import PushNotificationKafka.Owner
import PushNotificationKafka.Notification
import PushNotificationKafka.Delivery
import PushNotificationKafka.Transactions
import PushNotificationKafka.Subscription
import PushNotificationKafka.Visibility
import PushNotificationKafka.Retry
import PushNotificationKafka.Userdb
import PushNotificationKafka.Settings
import PushNotificationKafka.Timestamp
import PushNotificationKafka.Publication
import PushNotificationKafka.Enabled
import PushNotificationKafka.Heap
import PushNotificationKafka.Waiting
import PushNotificationKafka.Shutdown
import PushNotificationKafka.SharedGlobal
import PushNotificationKafka.Feed
import PushNotificationKafka.Report
import PushNotificationKafka.Subscribed
import PushNotificationKafka.Economy
import PushNotificationKafka.Privacy
