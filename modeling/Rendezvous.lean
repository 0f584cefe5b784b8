import Rendezvous.Coordinator.Loop
import Rendezvous.Main
import Rendezvous.Peer.Loop
import Rendezvous.Proofs.Channel.Packets
import Rendezvous.Proofs.Channel.Reception
import Rendezvous.Proofs.Channel.Recovery
import Rendezvous.Proofs.Channel.Segmentation
import Rendezvous.Proofs.Coordinator.AddressBindings
import Rendezvous.Proofs.Coordinator.Answers
import Rendezvous.Proofs.Coordinator.Coherence
import Rendezvous.Proofs.Coordinator.Conservation
import Rendezvous.Proofs.Coordinator.Delivery
import Rendezvous.Proofs.Coordinator.Expiry
import Rendezvous.Proofs.Coordinator.Inbound
import Rendezvous.Proofs.Coordinator.Isolation
import Rendezvous.Proofs.Coordinator.Registrations
import Rendezvous.Proofs.Coordinator.Routing
import Rendezvous.Proofs.Coordinator.Visibility
import Rendezvous.Proofs.Memory.SlabHistory
import Rendezvous.Proofs.Memory.Tenancy
import Rendezvous.Proofs.Network.AtRest
import Rendezvous.Proofs.Network.Convergence
import Rendezvous.Proofs.Network.Fidelity
import Rendezvous.Proofs.Network.InOrder
import Rendezvous.Proofs.Network.Receivable
import Rendezvous.Proofs.Peer.Cadence
import Rendezvous.Proofs.Peer.Directory
import Rendezvous.Proofs.Peer.Strays
import Rendezvous.Proofs.Peer.WakeUp
import Rendezvous.Proofs.Settings.Precedence
import Rendezvous.Proofs.Wire.Encoders
import Rendezvous.Proofs.Wire.Fitting
import Rendezvous.Proofs.Wire.Refusal
