import Linker.Connector.Delivery
import Linker.Connector.Login
import Linker.Connector.Completeness
import Linker.Connector.Presence
import Linker.Domain.Authenticity
import Linker.Domain.Authentication
import Linker.Domain.Convergence
import Linker.Domain.GroupMessages
import Linker.Domain.Persistence
import Linker.Domain.Border
import Linker.Domain.Redelivery
import Linker.Kafka.Repetition
import Linker.Kafka.Group
import Linker.Processor.Delivery
import Linker.Processor.DomainGraphService
import Linker.Processor.Effects
import Linker.Processor.FanOut
import Linker.Processor.Fetching
import Linker.Processor.Forwarding
import Linker.Processor.Registry
import Linker.Domain.Recovery
import Linker.Domain.Journey
import Linker.Domain.PointToPoint
import Linker.Domain.Closing
import Linker.Processor.Unreachable
import Linker.Processor.Verdicts
import Linker.Domain.Confirmation
import Linker.Processor.Processed
import Linker.Connector.Receipts
import Linker.Domain.Receipts
import Linker.Connector.Sessions
import Linker.Domain.Commands
import Linker.Common.Names
import Linker.Processor.Homes
import Linker.Domain.Neighbours
import Linker.Processor.Tunnel
import Linker.Processor.Traffic
import Linker.Exec.Recursion
import Linker.Exec.Contract
import Linker.Processor.Border
import Linker.Processor.Termination
import Linker.Common.Frames
import Linker.Domain.Frames
import Linker.Domain.Consumers
import Linker.Codec.Json
import Linker.Codec.JsonCodec
import Linker.Connector.NetworkUserService
import Linker.Connector.Timeout
import Linker.Processor.Startup
import Linker.Domain.Outcome
import Linker.Domain.Astray
import Linker.Domain.Retention
import Linker.Processor.ClientAppCache
import Linker.Domain.Order
