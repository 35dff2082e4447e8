import NativeHelper.PrefixCode
import NativeHelper.ModifiedUtf8
import NativeHelper.Transition
import NativeHelper.Ledger
import NativeHelper.Objects
import NativeHelper.OwnerRuns
import NativeHelper.Interleaving
import NativeHelper.Constexpr
import NativeHelper.VectorIterator
import NativeHelper.SignatureParser
import NativeHelper.Descriptors
import NativeHelper.ParserExact
import NativeHelper.ParserProgress
import NativeHelper.Reify
import NativeHelper.Shapes
import NativeHelper.Compare
import NativeHelper.SimilarTypes
import NativeHelper.Matching
import NativeHelper.Inference
import NativeHelper.BuildModes
import NativeHelper.InferredString
import NativeHelper.CallingConventions
import NativeHelper.ExceptionHelpers
import NativeHelper.JniResources
import NativeHelper.ThrowException
import NativeHelper.PendingDiscipline
import NativeHelper.ThrowFormatted
import NativeHelper.JniConstants
import NativeHelper.NioBuffers
import NativeHelper.ConstantGetters
import NativeHelper.ConstantThreads
import NativeHelper.UninterruptedGetters
import NativeHelper.JniInvocation
import NativeHelper.JniProcess
import NativeHelper.InvocationRuns
import NativeHelper.ScopedLocalRef
import NativeHelper.ScopedUtfChars
import NativeHelper.JavaArrays
import NativeHelper.ScopedArrayRO
import NativeHelper.ScopedArrayRW
import NativeHelper.ScopedBytes
import NativeHelper.ScopedLocalFrame
import NativeHelper.ToStringArray
import NativeHelper.ToStringArrayRuns
import NativeHelper.ThreadMoves
import NativeHelper.ClassCache
import NativeHelper.ClassCacheRuns
import NativeHelper.ThreadProgress
import NativeHelper.UtfValues
import NativeHelper.Windows
import NativeHelper.ArrayPrograms
import NativeHelper.ArrayWindows
import NativeHelper.ArrayRuns
import NativeHelper.JavaTypes
import NativeHelper.MethodTypes
import NativeHelper.CallSafety
import NativeHelper.JniMacros
import NativeHelper.NativeMethods
import NativeHelper.NativeTypes
import NativeHelper.Refinement
import NativeHelper.JavaHeap
import NativeHelper.JniHelpers
import NativeHelper.NullPointer
import NativeHelper.ScopedStringChars
import NativeHelper.PendingLogic
import NativeHelper.ExceptionTexts
import NativeHelper.ExceptionRuns
import NativeHelper.StringArrays
import NativeHelper.Printing
import NativeHelper.Elision
import NativeHelper.FramedRefs
import NativeHelper.ScopedBlocks
import NativeHelper.UncheckedBuild
