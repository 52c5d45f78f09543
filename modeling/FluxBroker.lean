import FluxBroker.Message
import FluxBroker.Record
import FluxBroker.Thread
import FluxBroker.Handshake
import FluxBroker.ThreadExit
import FluxBroker.Drain
import FluxBroker.Lifecycle
import FluxBroker.HostApi
import FluxBroker.Route
import FluxBroker.Servhash
import FluxBroker.ServhashAnswers
import FluxBroker.ServhashRegistrations
import FluxBroker.Subscriptions
import FluxBroker.ServhashMatch
import FluxBroker.Create
import FluxBroker.Pending
import FluxBroker.ServhashDisconnect
import FluxBroker.ServhashFutures
import FluxBroker.ServhashRefs
import FluxBroker.ServhashReplies
import FluxBroker.ServhashSettle
import FluxBroker.RecordCopies
import FluxBroker.ServhashLifecycle
