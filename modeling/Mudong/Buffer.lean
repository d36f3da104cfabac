import Mathlib.Data.Option.Basic
import Mudong.Lib.Slice

namespace mudong.ev

def Buffer.kCheapPrepend : Nat := 8
def Buffer.kInitialSize : Nat := 1024

/-- The byte buffer with its two indices into one contiguous storage. Pointers into the storage are offsets
from `begin()`, and `size_t` is unbounded here. Functions answer `none` where an assertion fails. -/
structure Buffer where
  buffer_ : List UInt8
  readerIndex_ : Nat
  writerIndex_ : Nat
  deriving DecidableEq, Repr

namespace Buffer

def readableBytes (b : Buffer) : Nat := b.writerIndex_ - b.readerIndex_
def writableBytes (b : Buffer) : Nat := b.buffer_.length - b.writerIndex_
def prependableBytes (b : Buffer) : Nat := b.readerIndex_
def peek (b : Buffer) : Nat := b.readerIndex_
def beginWrite (b : Buffer) : Nat := b.writerIndex_

/-- The members as the constructor initializes them, with the storage zeroed by the vector. -/
def init (initialSize : Nat) : Buffer :=
  { buffer_ := List.replicate (kCheapPrepend + initialSize) 0
    readerIndex_ := kCheapPrepend
    writerIndex_ := kCheapPrepend }

def create (initialSize : Nat) : Option Buffer := do
  let b := init initialSize
  guard (b.readableBytes = 0)
  guard (b.writableBytes = initialSize)
  guard (b.prependableBytes = kCheapPrepend)
  return b

/-- The bytes in `[readerIndex_, writerIndex_)`. -/
def readable (b : Buffer) : List UInt8 := Slice.window b.buffer_ b.readerIndex_ b.writerIndex_

def retrieveAll (b : Buffer) : Buffer :=
  { b with readerIndex_ := kCheapPrepend, writerIndex_ := kCheapPrepend }

def retrieve (b : Buffer) (len : Nat) : Option Buffer := do
  guard (len ≤ b.readableBytes)
  if len < b.readableBytes then return { b with readerIndex_ := b.readerIndex_ + len }
  else return b.retrieveAll

def retrieveUntil (b : Buffer) (stop : Nat) : Option Buffer := do
  guard (b.peek ≤ stop)
  guard (stop ≤ b.beginWrite)
  b.retrieve (stop - b.peek)

def retrieveInt64 (b : Buffer) : Option Buffer := b.retrieve 8
def retrieveInt32 (b : Buffer) : Option Buffer := b.retrieve 4
def retrieveInt16 (b : Buffer) : Option Buffer := b.retrieve 2
def retrieveInt8 (b : Buffer) : Option Buffer := b.retrieve 1

/-- The returned string and the buffer left behind. -/
def retrieveAsString (b : Buffer) (len : Nat) : Option (List UInt8 × Buffer) := do
  guard (len ≤ b.readableBytes)
  let result := Slice.window b.buffer_ b.peek (b.peek + len)
  let rest ← b.retrieve len
  return (result, rest)

def retrieveAllAsString (b : Buffer) : Option (List UInt8 × Buffer) := b.retrieveAsString b.readableBytes

/-- Grows the storage when the free space at both ends is too small, and otherwise slides the data down to
the reserved zone. -/
def makeSpace (b : Buffer) (len : Nat) : Option Buffer := do
  if b.writableBytes + b.prependableBytes < len + kCheapPrepend then
    return { b with buffer_ := Slice.resize b.buffer_ (b.writerIndex_ + len) 0 }
  else
    guard (kCheapPrepend < b.readerIndex_)
    let readable := b.readableBytes
    let slid : Buffer :=
      { buffer_ := Slice.overwrite b.buffer_ kCheapPrepend (Slice.window b.buffer_ b.readerIndex_ b.writerIndex_)
        readerIndex_ := kCheapPrepend
        writerIndex_ := kCheapPrepend + readable }
    guard (readable = slid.readableBytes)
    return slid

def ensureWritableBytes (b : Buffer) (len : Nat) : Option Buffer := do
  let b ← if b.writableBytes < len then b.makeSpace len else some b
  guard (len ≤ b.writableBytes)
  return b

def hasWritten (b : Buffer) (len : Nat) : Option Buffer := do
  guard (len ≤ b.writableBytes)
  return { b with writerIndex_ := b.writerIndex_ + len }

/-- A caller's copy of `data` to `beginWrite()`. -/
def writeAtEnd (b : Buffer) (data : List UInt8) : Buffer :=
  { b with buffer_ := Slice.overwrite b.buffer_ b.beginWrite data }

/-- `append(const char*, size_t)`, on the source range as a list. -/
def append (b : Buffer) (data : List UInt8) : Option Buffer := do
  let b ← b.ensureWritableBytes data.length
  (b.writeAtEnd data).hasWritten data.length

def appendString (b : Buffer) (data : List UInt8) : Option Buffer := b.append data
def appendStringView (b : Buffer) (data : List UInt8) : Option Buffer := b.append data
def appendVoid (b : Buffer) (data : List UInt8) : Option Buffer := b.append data

/-- The two buffers after the exchange of all three members. -/
def swap (b rhs : Buffer) : Buffer × Buffer :=
  (⟨rhs.buffer_, rhs.readerIndex_, rhs.writerIndex_⟩, ⟨b.buffer_, b.readerIndex_, b.writerIndex_⟩)

def prepend (b : Buffer) (data : List UInt8) : Option Buffer := do
  guard (data.length ≤ b.prependableBytes)
  let readerIndex_ := b.readerIndex_ - data.length
  return { b with buffer_ := Slice.overwrite b.buffer_ readerIndex_ data, readerIndex_ }

/-- What `::readv` did: it failed with an `errno`, or it filled the vectors in order with these bytes. -/
inductive ReadvResult where
  | failed (errno : Nat)
  | filled (data : List UInt8)
  deriving DecidableEq, Repr

def extrabufSize : Nat := 65536

/-- The total length of the one or two vectors handed to `::readv`. -/
def iovLength (b : Buffer) : Nat :=
  if b.writableBytes < extrabufSize then b.writableBytes + extrabufSize else b.writableBytes

/-- The buffer after the read, the returned `n`, and `*savedErrno` where it was set. -/
def readFd (b : Buffer) (result : ReadvResult) : Option (Buffer × Int × Option Nat) :=
  match result with
  | .failed errno => some (b, -1, some errno)
  | .filled data => do
    let writable := b.writableBytes
    let read := b.writeAtEnd (data.take writable)
    if data.length ≤ writable then
      return ({ read with writerIndex_ := b.writerIndex_ + data.length }, data.length, none)
    else
      let full : Buffer := { read with writerIndex_ := read.buffer_.length }
      let grown ← full.append (data.drop writable)
      return (grown, data.length, none)

end Buffer

end mudong.ev
