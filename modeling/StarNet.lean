import StarNet.Node.Command
import StarNet.Config.Store
import StarNet.Serial.Transceiver
import StarNet.Radio.Driver
import StarNet.Analog
import StarNet.Bench.Rack
import StarNet.Bench.Report
import StarNet.Proofs.Node.PacketLifecycle
import StarNet.Proofs.Node.MediumContract
import StarNet.Proofs.Node.AllocatedBuffer
import StarNet.Proofs.Node.Safety
import StarNet.Proofs.Node.Answers
import StarNet.Proofs.Node.Noise
import StarNet.Proofs.Node.Tracing
import StarNet.Proofs.Node.OneFrame
import StarNet.Proofs.Node.BoundedFifo
import StarNet.Proofs.Node.Commit
import StarNet.Proofs.Node.FlushEnds
import StarNet.Proofs.Node.Delivery
import StarNet.Proofs.Node.NotesShipped
import StarNet.Proofs.Link.AckDelivery
import StarNet.Proofs.Link.InOrder
import StarNet.Proofs.Link.AckRouting
import StarNet.Proofs.Serial.Findings
import StarNet.Proofs.Serial.Resync
import StarNet.Proofs.Serial.Corruption
import StarNet.Proofs.Serial.Duplex
import StarNet.Proofs.Serial.Assembly
import StarNet.Proofs.Radio.Reception
import StarNet.Proofs.Radio.Sending
import StarNet.Proofs.Config.Boot
import StarNet.Proofs.Config.Damage
import StarNet.Proofs.Config.Bounds
import StarNet.Proofs.Config.Corruption
import StarNet.Proofs.Config.StoredMode
import StarNet.Proofs.Config.StoredChecksum
