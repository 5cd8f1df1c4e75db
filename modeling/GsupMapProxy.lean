import GsupMapProxy.Common.Bcd
import GsupMapProxy.Common.Buffer
import GsupMapProxy.Common.Cursor
import GsupMapProxy.Gsup.Codec
import GsupMapProxy.Gsup.Message
import GsupMapProxy.Gsup.Proofs.Bounds
import GsupMapProxy.Gsup.Proofs.Elements
import GsupMapProxy.Gsup.Proofs.Language
import GsupMapProxy.Gsup.Proofs.NestedLengths
import GsupMapProxy.Gsup.Proofs.RoundTrip
import GsupMapProxy.Ipa.Codec
import GsupMapProxy.Ipa.Proofs.Chunking
import GsupMapProxy.Ipa.Proofs.Framing
import GsupMapProxy.Map.BerCodec
import GsupMapProxy.Map.BerCursor
import GsupMapProxy.Map.Codec
import GsupMapProxy.Map.Message
import GsupMapProxy.Map.Proofs.BerCursor
import GsupMapProxy.Map.Proofs.Bounds
import GsupMapProxy.Map.Proofs.Fields
import GsupMapProxy.Map.Proofs.Integers
import GsupMapProxy.Map.Proofs.Language
import GsupMapProxy.Map.Proofs.Numbers
import GsupMapProxy.Map.Proofs.RoundTrip
import GsupMapProxy.Map.Proofs.Unambiguous
import GsupMapProxy.Misc.BigEndian
import GsupMapProxy.Misc.Chunks
import GsupMapProxy.Misc.Grammar
import GsupMapProxy.Misc.Loop
import GsupMapProxy.Misc.Parallel
import GsupMapProxy.Misc.Proactor
import GsupMapProxy.Misc.Reassembly
import GsupMapProxy.Misc.Run
import GsupMapProxy.Misc.Sweep
import GsupMapProxy.Misc.Table
import GsupMapProxy.Misc.TwosComplement
import GsupMapProxy.Process.Machine
import GsupMapProxy.Process.Proofs.Ages
import GsupMapProxy.Process.Proofs.Correlation
import GsupMapProxy.Process.Proofs.Delivery
import GsupMapProxy.Process.Proofs.Flush
import GsupMapProxy.Process.Proofs.Loopback
import GsupMapProxy.Process.Proofs.ProxyRuns
import GsupMapProxy.Process.Proofs.Quota
import GsupMapProxy.Process.Proofs.Reads
import GsupMapProxy.Process.Proofs.Survival
import GsupMapProxy.Process.Proofs.Wire
import GsupMapProxy.Proxy.Converter
import GsupMapProxy.Proxy.Proofs.Ages
import GsupMapProxy.Proxy.Proofs.Answers
import GsupMapProxy.Proxy.Proofs.Commute
import GsupMapProxy.Proxy.Proofs.Digits
import GsupMapProxy.Proxy.Proofs.Expiry
import GsupMapProxy.Proxy.Proofs.Fidelity
import GsupMapProxy.Proxy.Proofs.Freshness
import GsupMapProxy.Proxy.Proofs.Halves
import GsupMapProxy.Proxy.Proofs.Handlers
import GsupMapProxy.Proxy.Proofs.HlrAnswers
import GsupMapProxy.Proxy.Proofs.Identifiers
import GsupMapProxy.Proxy.Proofs.Quota
import GsupMapProxy.Proxy.Proofs.Relay
import GsupMapProxy.Proxy.Proofs.Replies
import GsupMapProxy.Proxy.Proofs.Rollback
import GsupMapProxy.Proxy.Proofs.Tables
import GsupMapProxy.Proxy.Proofs.TransactionIds
import GsupMapProxy.Proxy.Proxy
import GsupMapProxy.Proxy.TransactionManager
import GsupMapProxy.Transport.IpaSession
import GsupMapProxy.Transport.M3uaCodec
import GsupMapProxy.Transport.MapLink
import GsupMapProxy.Transport.MapTransport
import GsupMapProxy.Transport.Proofs.Handshake
import GsupMapProxy.Transport.Proofs.HlrStream
import GsupMapProxy.Transport.Proofs.HlrWrites
import GsupMapProxy.Transport.Proofs.Isolation
import GsupMapProxy.Transport.Proofs.M3uaFraming
import GsupMapProxy.Transport.Proofs.M3uaRoundTrip
import GsupMapProxy.Transport.Proofs.M3uaStalls
import GsupMapProxy.Transport.Proofs.MapLink
import GsupMapProxy.Transport.Proofs.MapMethods
import GsupMapProxy.Transport.Proofs.Pacing
import GsupMapProxy.Transport.Proofs.Progress
import GsupMapProxy.Transport.Proofs.Reads
import GsupMapProxy.Transport.Proofs.Recovery
import GsupMapProxy.Transport.Proofs.Reports
import GsupMapProxy.Transport.Proofs.ServerProgress
import GsupMapProxy.Transport.Proofs.SessionEffects
import GsupMapProxy.Transport.Proofs.SessionMethods
import GsupMapProxy.Transport.Proofs.SessionStops
import GsupMapProxy.Transport.Proofs.SessionStream
import GsupMapProxy.Transport.Proofs.SessionTables
import GsupMapProxy.Transport.Proofs.SessionTurns
import GsupMapProxy.Transport.Proofs.SessionWrites
import GsupMapProxy.Transport.Proofs.SessionsApart
import GsupMapProxy.Transport.Proofs.UdtBounds
import GsupMapProxy.Transport.Proofs.UdtRoundTrip
import GsupMapProxy.Transport.Proofs.WriteQueue
import GsupMapProxy.Transport.ScccpCodec
import GsupMapProxy.Transport.ServerLink
import GsupMapProxy.Transport.SessionLink
