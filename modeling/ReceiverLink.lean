import ReceiverLink.Main
import ReceiverLink.Supervisor.Scenario
import ReceiverLink.Proofs.Text.Shape
import ReceiverLink.Proofs.Endpoint.Naming
import ReceiverLink.Proofs.Telegram.Shape
import ReceiverLink.Proofs.Telegram.Bits
import ReceiverLink.Proofs.Telegram.Remainder
import ReceiverLink.Proofs.Telegram.Corruption
import ReceiverLink.Proofs.Framer.Run
import ReceiverLink.Proofs.Framer.Stages
import ReceiverLink.Proofs.Framer.Chunks
import ReceiverLink.Proofs.Framer.Lossless
import ReceiverLink.Proofs.Framer.Resync
import ReceiverLink.Proofs.Framer.Encoded
import ReceiverLink.Proofs.Framer.Decoded
import ReceiverLink.Proofs.Framer.Segments
import ReceiverLink.Proofs.Framer.Untimed
import ReceiverLink.Proofs.Framer.Delayed
import ReceiverLink.Proofs.Framer.Progress
import ReceiverLink.Proofs.Framer.Counts
import ReceiverLink.Proofs.Framer.Forgetful
import ReceiverLink.Proofs.Framer.Captured
import ReceiverLink.Proofs.Reader.Calls
import ReceiverLink.Proofs.Reader.Blocking
import ReceiverLink.Proofs.Reader.Course
import ReceiverLink.Proofs.Reader.Polled
import ReceiverLink.Proofs.Reader.Exact
import ReceiverLink.Proofs.Supervisor.Operations
import ReceiverLink.Proofs.Supervisor.Moves
import ReceiverLink.Proofs.Supervisor.Runs
import ReceiverLink.Proofs.Supervisor.Order
import ReceiverLink.Proofs.Supervisor.Rest
import ReceiverLink.Proofs.Supervisor.Steady
import ReceiverLink.Proofs.Supervisor.Deliveries
import ReceiverLink.Proofs.Supervisor.Outbound
import ReceiverLink.Proofs.Supervisor.Account
import ReceiverLink.Proofs.Supervisor.Reception
import ReceiverLink.Proofs.Supervisor.Inbound
import ReceiverLink.Proofs.Supervisor.Endings
import ReceiverLink.Proofs.Supervisor.Hearing
import ReceiverLink.Proofs.Supervisor.Alike
import ReceiverLink.Proofs.Supervisor.Isolation
import ReceiverLink.Proofs.Supervisor.Acts
import ReceiverLink.Proofs.Supervisor.Phases
import ReceiverLink.Proofs.Supervisor.Lifecycle
import ReceiverLink.Proofs.Supervisor.Exclusive
import ReceiverLink.Proofs.Supervisor.Timeline
import ReceiverLink.Proofs.Supervisor.Schedule
import ReceiverLink.Proofs.Supervisor.Punctual
import ReceiverLink.Proofs.Supervisor.Pulse
import ReceiverLink.Proofs.Supervisor.Keepalive
import ReceiverLink.Proofs.Supervisor.Shutdown
import ReceiverLink.Proofs.Supervisor.Circumstances
import ReceiverLink.Proofs.Supervisor.Untraced
import ReceiverLink.Proofs.Supervisor.Leaving
import ReceiverLink.Proofs.Supervisor.Drained
import ReceiverLink.Proofs.Supervisor.Played
import ReceiverLink.Proofs.Supervisor.Lasting
import ReceiverLink.Proofs.Monitor.Watching
import ReceiverLink.Proofs.Monitor.Display
