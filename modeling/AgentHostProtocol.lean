import AgentHostProtocol.Wire.ChatActions
import AgentHostProtocol.Library.Runs
import AgentHostProtocol.Library.LengthPrefix
import AgentHostProtocol.Channels.Reducers
import AgentHostProtocol.Channels.Terminal
import AgentHostProtocol.Channels.Streaming
import AgentHostProtocol.Client.StateMirror
import AgentHostProtocol.Hosts.StateMirror
import AgentHostProtocol.Hosts.Isolation
import AgentHostProtocol.Hosts.OwnKinds
import AgentHostProtocol.Library.Register
import AgentHostProtocol.Rust.Mirror
import AgentHostProtocol.Rust.Followed
import AgentHostProtocol.Library.Delivery
import AgentHostProtocol.Client.AsyncQueue
import AgentHostProtocol.Client.Parked
import AgentHostProtocol.Client.Delivered
import AgentHostProtocol.Library.Ledger
import AgentHostProtocol.Client.Requests
import AgentHostProtocol.Client.Settlement
import AgentHostProtocol.Client.ManagedSubscriptions
import AgentHostProtocol.Client.Leases
import AgentHostProtocol.Library.Lists
import AgentHostProtocol.Library.BitField
import AgentHostProtocol.Library.Rfc3339
import AgentHostProtocol.Chat.Reducer
import AgentHostProtocol.Chat.Activity
import AgentHostProtocol.Chat.Lifecycle
import AgentHostProtocol.Chat.Steps
import AgentHostProtocol.Chat.StatusAgreement
import AgentHostProtocol.Chat.Stale
import AgentHostProtocol.Chat.Pending
import AgentHostProtocol.Chat.InputRequests
import AgentHostProtocol.Chat.Paging
import AgentHostProtocol.Chat.Tracking
import AgentHostProtocol.Chat.Ownership
import AgentHostProtocol.Chat.History
import AgentHostProtocol.Rust.Chat
import AgentHostProtocol.Agreement.ToolCalls
import AgentHostProtocol.Agreement.Chat
import AgentHostProtocol.Agreement.ChatReducer
import AgentHostProtocol.Session.Reducer
import AgentHostProtocol.Session.InputNeeded
import AgentHostProtocol.Session.WorkingDirectories
import AgentHostProtocol.Session.Customizations
import AgentHostProtocol.Rust.Session
import AgentHostProtocol.Agreement.Session
import AgentHostProtocol.Dotnet.Session
import AgentHostProtocol.Dotnet.Client
import AgentHostProtocol.Dotnet.Answered
import AgentHostProtocol.Dotnet.Calls
import AgentHostProtocol.Dotnet.Teardown
import AgentHostProtocol.Go.Answered
import AgentHostProtocol.Go.Chat
import AgentHostProtocol.Library.InPlace
import AgentHostProtocol.Go.InPlace
import AgentHostProtocol.Dotnet.Chat
import AgentHostProtocol.Agreement.Endings
import AgentHostProtocol.Go.Client
import AgentHostProtocol.Go.Handles
import AgentHostProtocol.Go.Hosts.Host
import AgentHostProtocol.Go.Hosts.Pump
import AgentHostProtocol.Go.Hosts.Registered
import AgentHostProtocol.Go.Hosts.Registry
import AgentHostProtocol.Go.Hosts.Retries
import AgentHostProtocol.Go.Hosts.ShutDown
import AgentHostProtocol.Go.Teardown
import AgentHostProtocol.Agreement.DotnetSession
import AgentHostProtocol.Rust.Unapplied
import AgentHostProtocol.Hosts.Runtime
import AgentHostProtocol.Hosts.Unsubscribed
import AgentHostProtocol.Hosts.Requested
import AgentHostProtocol.Hosts.Supervisor
import AgentHostProtocol.Hosts.Resumption
import AgentHostProtocol.Rust.Client
import AgentHostProtocol.Rust.Teardown
import AgentHostProtocol.Rust.Hosts.Removal
import AgentHostProtocol.Agreement.GoChatReducer
import AgentHostProtocol.Library.Feed
import AgentHostProtocol.Hosts.Catalogued
import AgentHostProtocol.Hosts.Survivors
import AgentHostProtocol.Dotnet.Hosts.Entry
import AgentHostProtocol.Dotnet.Hosts.Policy
import AgentHostProtocol.Dotnet.Hosts.Supervisor
import AgentHostProtocol.Dotnet.Hosts.Retried
import AgentHostProtocol.Dotnet.Hosts.Tracking
import AgentHostProtocol.Swift.Client
import AgentHostProtocol.Swift.Teardown
import AgentHostProtocol.Swift.Hosts.Delivered
import AgentHostProtocol.Swift.Hosts.Resumed
import AgentHostProtocol.Dotnet.Hosts.Tracked
import AgentHostProtocol.Dotnet.Hosts.Followed
import AgentHostProtocol.Dotnet.Hosts.Stopped
import AgentHostProtocol.Dotnet.Hosts.Registry
import AgentHostProtocol.Dotnet.Hosts.ShutDown
import AgentHostProtocol.Session.Frames
import AgentHostProtocol.Session.ChatCatalogue
import AgentHostProtocol.Version.Negotiation
import AgentHostProtocol.Go.Hosts.Backoff
import AgentHostProtocol.Agreement.Channels
import AgentHostProtocol.Agreement.UnknownVariants
import AgentHostProtocol.Library.PrefixCode
import AgentHostProtocol.Library.FileSystem
import AgentHostProtocol.Rust.Hosts.ClientIdStore
import AgentHostProtocol.Library.Incremental
import AgentHostProtocol.Library.BigEndian
import AgentHostProtocol.Swift.Transport.Frames
import AgentHostProtocol.Swift.Transport.Receive
import AgentHostProtocol.Client.WebSocketTransport
import AgentHostProtocol.Hosts.Multi
import AgentHostProtocol.Hosts.Registered
import AgentHostProtocol.Hosts.Announced
import AgentHostProtocol.Client.Inbound
import AgentHostProtocol.Agreement.KotlinChat
import AgentHostProtocol.Agreement.KotlinSession
import AgentHostProtocol.Agreement.KotlinChannels
import AgentHostProtocol.Dotnet.ChatReducer
