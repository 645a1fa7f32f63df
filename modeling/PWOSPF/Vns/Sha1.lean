import PWOSPF.Framework.Blocks
import PWOSPF.Packet.Frame

/-!
# SHA-1

`sha1.c`. The message is taken byte by byte, in as many portions as the caller likes, and every 64 bytes
are mixed into the digest. The number of its bits is counted in two words; a message that is too long
for them, or that goes on after the result, corrupts the context.
-/

namespace PWOSPF

open Framework

/-- Five words, of the digest or of the buffers `A` to `E`. -/
structure Sha1Words where
  a : UInt32
  b : UInt32
  c : UInt32
  d : UInt32
  e : UInt32
  deriving DecidableEq, Repr

structure SHA1Context where
  messageDigest : Sha1Words
  lengthLow : UInt32
  lengthHigh : UInt32
  messageBlock : Frame
  messageBlockIndex : Nat
  computed : Bool
  corrupted : Bool
  deriving DecidableEq, Repr

def sha1CircularShift (bits word : UInt32) : UInt32 := (word <<< bits) ||| (word >>> (32 - bits))

def sha1Start : Sha1Words := ⟨0x67452301, 0xEFCDAB89, 0x98BADCFE, 0x10325476, 0xC3D2E1F0⟩

def sha1Reset (context : SHA1Context) : SHA1Context :=
  { context with
    lengthLow := 0
    lengthHigh := 0
    messageBlockIndex := 0
    messageDigest := sha1Start
    computed := false
    corrupted := false }

/-! ## A block -/

/-- `W[t]` for `t < 16`. -/
def blockWord (block : Frame) (t : Nat) : Exec UInt32 := do
  let b₀ ← block.get ⟨t * 4, 1⟩
  let b₁ ← block.get ⟨t * 4 + 1, 1⟩
  let b₂ ← block.get ⟨t * 4 + 2, 1⟩
  let b₃ ← block.get ⟨t * 4 + 3, 1⟩
  return UInt32.ofNat b₀ <<< 24 ||| UInt32.ofNat b₁ <<< 16 ||| UInt32.ofNat b₂ <<< 8 ||| UInt32.ofNat b₃

def expandWords (w : List UInt32) : List UInt32 :=
  (List.range' 16 64).foldl (fun w t => w ++ [sha1CircularShift 1
    (w.getD (t - 3) 0 ^^^ w.getD (t - 8) 0 ^^^ w.getD (t - 14) 0 ^^^ w.getD (t - 16) 0)]) w

/-- The body of the four loops. -/
def sha1Round (f : UInt32 → UInt32 → UInt32 → UInt32) (k w : UInt32) (x : Sha1Words) : Sha1Words :=
  let temp := sha1CircularShift 5 x.a + f x.b x.c x.d + x.e + w + k
  ⟨temp, x.a, sha1CircularShift 30 x.b, x.c, x.d⟩

def sha1Rounds (f : UInt32 → UInt32 → UInt32 → UInt32) (k : UInt32) (w : List UInt32) (start : Nat)
    (x : Sha1Words) : Sha1Words :=
  (List.range' start 20).foldl (fun x t => sha1Round f k (w.getD t 0) x) x

def choose (b c d : UInt32) : UInt32 := (b &&& c) ||| (~~~b &&& d)
def parity (b c d : UInt32) : UInt32 := b ^^^ c ^^^ d
def majority (b c d : UInt32) : UInt32 := (b &&& c) ||| (b &&& d) ||| (c &&& d)

def Sha1Words.add (x y : Sha1Words) : Sha1Words :=
  ⟨x.a + y.a, x.b + y.b, x.c + y.c, x.d + y.d, x.e + y.e⟩

def sha1ProcessMessageBlock (context : SHA1Context) : Exec SHA1Context := do
  let w := expandWords (← (List.range 16).mapM (blockWord context.messageBlock))
  let x := sha1Rounds choose 0x5A827999 w 0 context.messageDigest
  let x := sha1Rounds parity 0x6ED9EBA1 w 20 x
  let x := sha1Rounds majority 0x8F1BBCDC w 40 x
  let x := sha1Rounds parity 0xCA62C1D6 w 60 x
  return { context with
    messageDigest := context.messageDigest.add x
    messageBlockIndex := 0 }

/-! ## The message -/

/-- `context->Message_Block[context->Message_Block_Index++] = b` -/
def SHA1Context.put (context : SHA1Context) (b : UInt8) : Exec SHA1Context := do
  let block ← context.messageBlock.store context.messageBlockIndex [b]
  return { context with
    messageBlock := block
    messageBlockIndex := context.messageBlockIndex + 1 }

/-- The eight bits are counted, with a carry into `Length_High`. -/
def SHA1Context.count (context : SHA1Context) : SHA1Context :=
  let low := context.lengthLow + 8
  let high := if low = 0 then context.lengthHigh + 1 else context.lengthHigh
  { context with
    lengthLow := low
    lengthHigh := high
    corrupted := context.corrupted || low = 0 && high = 0 }

def sha1InputByte (context : SHA1Context) (b : UInt8) : Exec SHA1Context := do
  let context := (← context.put b).count
  if context.messageBlockIndex = 64 then sha1ProcessMessageBlock context else return context

def sha1InputLoop : List UInt8 → SHA1Context → Exec SHA1Context
  | [], context => .ok context
  | b :: rest, context =>
    if context.corrupted then .ok context
    else do sha1InputLoop rest (← sha1InputByte context b)

def sha1Input (context : SHA1Context) (message : List UInt8) : Exec SHA1Context :=
  if message = [] then .ok context
  else if context.computed || context.corrupted then .ok { context with corrupted := true }
  else sha1InputLoop message context

/-- The loops that fill the block with zeros, up to `n` of them. -/
def SHA1Context.fill : Nat → SHA1Context → Exec SHA1Context
  | 0, context => .ok context
  | n + 1, context => do (← context.put 0).fill n

/-- The last 8 octets. -/
def lengthOctets (high low : UInt32) : List UInt8 :=
  [high >>> 24, high >>> 16, high >>> 8, high, low >>> 24, low >>> 16, low >>> 8, low].map fun x =>
    (x &&& 0xFF).toUInt8

def sha1PadMessage (context : SHA1Context) : Exec SHA1Context := do
  let context ←
    if context.messageBlockIndex > 55 then do
      let context ← context.put 0x80
      let context ← context.fill (64 - context.messageBlockIndex)
      let context ← sha1ProcessMessageBlock context
      context.fill (56 - context.messageBlockIndex)
    else do
      let context ← context.put 0x80
      context.fill (56 - context.messageBlockIndex)
  let block ← context.messageBlock.store 56 (lengthOctets context.lengthHigh context.lengthLow)
  sha1ProcessMessageBlock { context with messageBlock := block }

/-- Also what is returned. -/
def sha1Result (context : SHA1Context) : Exec (SHA1Context × Bool) :=
  if context.corrupted then .ok (context, false)
  else if context.computed then .ok (context, true)
  else do return ({ ← sha1PadMessage context with computed := true }, true)

/-- The digest of `abc`. -/
example : ((do
      let context := sha1Reset ⟨sha1Start, 1, 2, List.replicate 64 3, 4, true, true⟩
      let context ← sha1Input context [97]
      sha1Result (← sha1Input context [98, 99])) : Exec (SHA1Context × Bool)).map
        (fun x => (x.1.messageDigest, x.2)) =
    .ok (⟨0xA9993E36, 0x4706816A, 0xBA3E2571, 0x7850C26C, 0x9CD0D89D⟩, true) := by
  decide +kernel

end PWOSPF
