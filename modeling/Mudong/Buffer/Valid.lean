import Mudong.Buffer.Spec

namespace mudong.ev

/-- A buffer together with its invariant. On such buffers no assertion of `append` or `readFd` can fail, so
the functions below are total. -/
structure ValidBuffer where
  val : Buffer
  valid : val.Valid
  deriving DecidableEq

namespace ValidBuffer

def init (initialSize : Nat) : ValidBuffer := ⟨Buffer.init initialSize, Buffer.init_valid initialSize⟩

def readable (v : ValidBuffer) : List UInt8 := v.val.readable
def readableBytes (v : ValidBuffer) : Nat := v.val.readableBytes

theorem readableBytes_eq (v : ValidBuffer) : v.readableBytes = v.readable.length :=
  v.valid.length_readable.symm

@[simp] theorem readable_init (initialSize : Nat) : (init initialSize).readable = [] :=
  Buffer.readable_init initialSize

private theorem append_isSome (v : ValidBuffer) (data : List UInt8) : (v.val.append data).isSome := by
  obtain ⟨next, hnext, _⟩ := Buffer.append_spec v.valid data
  simp [hnext]

def append (v : ValidBuffer) (data : List UInt8) : ValidBuffer :=
  ⟨(v.val.append data).get (append_isSome v data), by
    obtain ⟨next, hnext, hvalid, _⟩ := Buffer.append_spec v.valid data
    simpa [hnext] using hvalid⟩

@[simp] theorem readable_append (v : ValidBuffer) (data : List UInt8) :
    (v.append data).readable = v.readable ++ data := by
  obtain ⟨next, hnext, _, hreadable⟩ := Buffer.append_spec v.valid data
  simpa [append, readable, hnext] using hreadable

def retrieveAll (v : ValidBuffer) : ValidBuffer := ⟨v.val.retrieveAll, Buffer.retrieveAll_valid v.valid⟩

/-- Without assertions a retrieval of more than everything empties the buffer. -/
def retrieve (v : ValidBuffer) (len : Nat) : ValidBuffer :=
  if hlen : len ≤ v.readableBytes then
    ⟨(v.val.retrieve len).get (by
        obtain ⟨rest, hrest, _⟩ := Buffer.retrieve_spec v.valid hlen
        simp [hrest]), by
      obtain ⟨rest, hrest, hvalid, _⟩ := Buffer.retrieve_spec v.valid hlen
      simpa [hrest] using hvalid⟩
  else v.retrieveAll

@[simp] theorem readable_retrieve (v : ValidBuffer) (len : Nat) :
    (v.retrieve len).readable = v.readable.drop len := by
  by_cases hlen : len ≤ v.readableBytes
  · obtain ⟨rest, hrest, _, hreadable⟩ := Buffer.retrieve_spec v.valid hlen
    simpa [retrieve, hlen, readable, hrest] using hreadable
  · have hshort : v.readable.length ≤ len := by
      rw [← readableBytes_eq]
      omega
    rw [retrieve, dif_neg hlen]
    exact (Buffer.readable_retrieveAll v.val).trans (List.drop_eq_nil_of_le hshort).symm

/-- The buffer after `readFd`, and what `readFd` returned. -/
def readFd (v : ValidBuffer) (result : Buffer.ReadvResult) : ValidBuffer × Int :=
  match result with
  | .failed _ => (v, -1)
  | .filled data =>
    (⟨((v.val.readFd (.filled data)).get (by
        obtain ⟨next, hnext, _⟩ := Buffer.readFd_spec v.valid data
        simp [hnext])).1, by
      obtain ⟨next, hnext, hvalid, _⟩ := Buffer.readFd_spec v.valid data
      simpa [hnext] using hvalid⟩, data.length)

end ValidBuffer

end mudong.ev
