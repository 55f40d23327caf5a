import ClassicIcons.Bytes

/-! What can be had from a compressed stream.

Programs are written for any `Decoder`. Whoever wants the bytes that a stream holds says
how many of them at most, and gets them, or all there are, or is told what is wrong with
the stream. How it is coded is the decoder's affair; one of them is `inflater`. -/
namespace ClassicIcons.Zlib

class Decoder where
  /-- The first bytes of what a stream holds, `most` of them at most, or what is wrong. -/
  read (most : Nat) (stream : Bytes) : Except String Bytes

end ClassicIcons.Zlib
