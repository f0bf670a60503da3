import UQuic.AckHandler.ReceivedPacketHandler
import UQuic.InitialCrypto
import UQuic.ReceiveDelivery
import UQuic.AdvertisedLimits
import UQuic.SendConservation
import UQuic.SendWindows
import UQuic.ActiveStreams
import UQuic.HTTP3.Stream
import UQuic.AckHandler.AckedPackets
import UQuic.PayloadReadback
import UQuic.Handshake.KeyUpdate
import UQuic.DatagramPacking
import UQuic.PacketHandlerMap
import UQuic.RetirePriorTo
import UQuic.AckHandler.Amplification
import UQuic.HTTP3.Headers
import UQuic.Server
import UQuic.InitialHeader
import UQuic.PathManager
import UQuic.FrameSplit
import UQuic.Wire.Durations
import UQuic.Congestion.Pacer
import UQuic.RingQueue
import UQuic.Consumers
import UQuic.PacketUnpacker
