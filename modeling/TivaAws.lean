import TivaAws.Mqtt.Types
import TivaAws.Foundation.Varint
import TivaAws.Mqtt.RemainingLength
import TivaAws.Mqtt.Topic
import TivaAws.Foundation.Table
import TivaAws.Mqtt.Subscription
import TivaAws.Mqtt.Context
import TivaAws.Mqtt.Handlers
import TivaAws.Mqtt.Operations
import TivaAws.Mqtt.Parse
import TivaAws.Foundation.Labelled
import TivaAws.Mqtt.RxState
import TivaAws.Mqtt.Transition
import TivaAws.Mqtt.Primitives
import TivaAws.Mqtt.HandlerSteps
import TivaAws.Mqtt.ParseSteps
import TivaAws.Mqtt.Packets
import TivaAws.Mqtt.OperationSteps
import TivaAws.Mqtt.Run
import TivaAws.Mqtt.Reception
import TivaAws.Foundation.Ledger
import TivaAws.Mqtt.Ownership
import TivaAws.Mqtt.Connection
import TivaAws.Mqtt.SendStream
import TivaAws.Mqtt.KeepAlive
import TivaAws.Mqtt.Chunking
import TivaAws.Mqtt.PacketStream
import TivaAws.Mqtt.Reading
import TivaAws.Mqtt.SubscriptionTable
import TivaAws.Mqtt.SubscriptionInvariant
import TivaAws.Mqtt.Acknowledgment
import TivaAws.Mqtt.SubscriptionOrder
import TivaAws.Mqtt.PublishRoundTrip
import TivaAws.BufferPool.Exclusive
import TivaAws.Tls.Lifetimes
import TivaAws.Shadow.Semaphore
import TivaAws.Shadow.Subscribed
import TivaAws.Pkcs11.Digests
import TivaAws.Pkcs11.Initialized
import TivaAws.Agent.SetupConnection
import TivaAws.Agent.Task
import TivaAws.Agent.Requests
import TivaAws.Clock.Calendar
import TivaAws.Clock.Uptime
import TivaAws.Mqtt.TopicMatch
import TivaAws.Mqtt.FailedSubscribe
import TivaAws.Mqtt.RequestPackets
import TivaAws.Rng.HardwarePoll
import TivaAws.Agent.Replies
import TivaAws.Agent.Identifiers
import TivaAws.Shadow.Gets
import TivaAws.Shadow.StoredCallbacks
import TivaAws.Agent.SocketOwners
import TivaAws.Mqtt.TopicLevels
import TivaAws.Mqtt.PublishDelivery
import TivaAws.Mqtt.AcknowledgmentFrame
import TivaAws.Mqtt.RequestTimeout
import TivaAws.Mqtt.MalformedReturn
import TivaAws.Mqtt.LengthAgreement
import TivaAws.Shadow.TopicStrings
import TivaAws.Shadow.Deletes
import TivaAws.Shadow.AnswerTopics
import TivaAws.Shadow.CatalogMatch
import TivaAws.Agent.Responses
import TivaAws.Agent.Faults
import TivaAws.Agent.ConnectFailures
import TivaAws.Pkcs11.CreatedObjects
import TivaAws.Tls.Transfers
import TivaAws.Sockets.Options
import TivaAws.Shadow.CatalogEntries
import TivaAws.Shadow.RegisterCallbacks
import TivaAws.Shadow.RegisterAlone
import TivaAws.Shadow.ClientCreate
import TivaAws.Shadow.WholeTopics
import TivaAws.Shadow.BlockingTime
import TivaAws.Shadow.OperationCourse
import TivaAws.Foundation.Json
import TivaAws.Foundation.JsonReading
import TivaAws.Jsmn.Parse
import TivaAws.Jsmn.Tokens
import TivaAws.Jsmn.Lax
import TivaAws.Shadow.ClientToken
import TivaAws.Agent.InFlight
import TivaAws.Agent.InStep
import TivaAws.Agent.Told
import TivaAws.Agent.CommandRounds
import TivaAws.Shadow.DeltaReport
import TivaAws.Foundation.LinkedRing
import TivaAws.Rtos.LinkedList
import TivaAws.Sd.FileNames
import TivaAws.Sd.FileNameGrammar
import TivaAws.Sd.Outcomes
import TivaAws.Sd.UpdateFile
import TivaAws.Foundation.Intervals
import TivaAws.Foundation.Words
import TivaAws.Rtos.Heap
import TivaAws.Rtos.FreeList
import TivaAws.Rtos.HeapBlocks
import TivaAws.Rtos.Allocations
import TivaAws.Rtos.HeapRuns
import TivaAws.Rtos.KernelList
import TivaAws.Rtos.KernelListRuns
import TivaAws.Rtos.KernelListTurns
