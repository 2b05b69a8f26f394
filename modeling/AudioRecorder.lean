import AudioRecorder.Lib.Machine
import AudioRecorder.Codec.Handle
import AudioRecorder.Java.Sequence
import AudioRecorder.Java.Sessions
import AudioRecorder.Java.Stop
import AudioRecorder.Native.File
import AudioRecorder.Native.Strides
import AudioRecorder.Native.Typestate
import AudioRecorder.Native.OpenStreams
import AudioRecorder.Java.Volume
import AudioRecorder.Java.Playback
import AudioRecorder.Codec.Synthesis
import AudioRecorder.Codec.Params
import AudioRecorder.Codec.SpeechDec
import AudioRecorder.Codec.PostFilter
import AudioRecorder.Codec.FrameDecode
import AudioRecorder.Lib.Lockstep
import AudioRecorder.Codec.Pauses
import AudioRecorder.Codec.Transport
import AudioRecorder.Codec.PitchLag
import AudioRecorder.Lib.Pulses
import AudioRecorder.Codec.Codebook
import AudioRecorder.Codec.CodebookPairs
import AudioRecorder.Codec.Excitation
import AudioRecorder.Codec.Lsf
