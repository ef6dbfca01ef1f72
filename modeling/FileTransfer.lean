import FileTransfer.Build1.Isolation
import FileTransfer.Router.Forwarding
import FileTransfer.Sample3.AckBookkeeping
import FileTransfer.Sample3.AckSoundness
import FileTransfer.Sample3.ChunkReads
import FileTransfer.Sample3.FileSafety
import FileTransfer.Sample3.HandshakeAgreement
import FileTransfer.Sample3.PacketCounts
import FileTransfer.Sample3.ReceiverStream
import FileTransfer.Sample3.SequenceAgreement
import FileTransfer.Assign3.PairTransfer
import FileTransfer.Udp.Packet
import FileTransfer.Assign3.ControlChannel
import FileTransfer.Assign3.ControlRuns
import FileTransfer.Build2.Alternation
import FileTransfer.Commands
import FileTransfer.Assign3.FailedOperations
import FileTransfer.Assign3.LastChunk
import FileTransfer.Assign3.Realignment
import FileTransfer.MessageCounts
import FileTransfer.Sample3.FailedSends
import FileTransfer.Sample3.Fragments
import FileTransfer.Sample3.Requests
import FileTransfer.Assign3.Announcements
import FileTransfer.Listing
import FileTransfer.Router.BoundedDelay
import FileTransfer.Build1.ReceiveLoops
import FileTransfer.Build2.Server
import FileTransfer.Sample3.SpecialRequest
import FileTransfer.Sample3.WindowNumbers
import FileTransfer.Assign3.Session
import FileTransfer.Assign3.Handshake
import FileTransfer.Deployments
import FileTransfer.Build1.Session
