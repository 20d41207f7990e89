import IQzip.Library.BitField
import IQzip.Library.Iteration
import IQzip.Library.Coder
import IQzip.Library.Pump
import IQzip.Library.Rechunk
import IQzip.Library.RechunkRuns
import IQzip.Library.Footprint
import IQzip.PrimaryHeader
import IQzip.IdentificationPacket
import IQzip.Machine
import IQzip.CompressionHeader
import IQzip.HeaderShape
import IQzip.Aec
import IQzip.Impl
import IQzip.FileCoding
import IQzip.StreamCoding
import IQzip.Compressor
import IQzip.Decompressor
import IQzip.StreamAgreement
import IQzip.StreamDecode
import IQzip.HeaderResidue
import IQzip.FieldRoundTrip
import IQzip.Library.Layout
import IQzip.HeaderLayout
import IQzip.DecoderSetup
import IQzip.DecoderParameters
import IQzip.HeaderReplay
import IQzip.Construction
import IQzip.ByteAccounting
import IQzip.ChunkBoundary
import IQzip.Frame
import IQzip.Sessions
import IQzip.Lossless
import IQzip.LoopTermination
import IQzip.FlushDrain
import IQzip.Library.MaskedWrite
import IQzip.Library.LastWrite
import IQzip.FieldSetters
import IQzip.FieldLaws
import IQzip.HeaderSetters
import IQzip.CommandLine
import IQzip.Library.Traced
import IQzip.CarryBuffer
import IQzip.Appending
import IQzip.Calls
import IQzip.Interleaving
import IQzip.Recovery
import IQzip.CommandGrammar
import IQzip.Tool
import IQzip.Delivery
import IQzip.FileErrors
import IQzip.Truncation
import IQzip.DecoderSessions
import IQzip.Modes
import IQzip.FileAborts
import IQzip.StreamSteps
import IQzip.StreamAborts
