import Mudong.Buffer.Calls
import Mudong.Lib.Search

namespace mudong.ev.Buffer

def kCRLF : List UInt8 := [13, 10]

def findCRLF (b : Buffer) : Option Nat :=
  let crlf := b.peek + Search.search kCRLF (Slice.window b.buffer_ b.peek b.beginWrite)
  if crlf = b.beginWrite then none else some crlf

/-- `findCRLF(const char*)`: the outer `none` is a failed assertion. -/
def findCRLFFrom (b : Buffer) (start : Nat) : Option (Option Nat) := do
  guard (b.peek ≤ start)
  guard (start ≤ b.beginWrite)
  let crlf := start + Search.search kCRLF (Slice.window b.buffer_ start b.beginWrite)
  return if crlf = b.beginWrite then none else some crlf

/-- With `memchr` on the readable bytes. -/
def findEOL (b : Buffer) : Option Nat :=
  ((Slice.window b.buffer_ b.peek (b.peek + b.readableBytes)).idxOf? 10).map (b.peek + ·)

def findEOLFrom (b : Buffer) (start : Nat) : Option (Option Nat) := do
  guard (b.peek ≤ start)
  guard (start ≤ b.beginWrite)
  return ((Slice.window b.buffer_ start (start + (b.beginWrite - start))).idxOf? 10).map (start + ·)

/-- The two ends of a line that a buffer can be searched for. -/
inductive LineEnd where
  | crlf
  | eol
  deriving DecidableEq, Repr

namespace LineEnd

def bytes : LineEnd → List UInt8
  | .crlf => kCRLF
  | .eol => [10]

def find (b : Buffer) : LineEnd → Option Nat
  | .crlf => b.findCRLF
  | .eol => b.findEOL

def findFrom (b : Buffer) (start : Nat) : LineEnd → Option (Option Nat)
  | .crlf => b.findCRLFFrom start
  | .eol => b.findEOLFrom start

theorem bytes_ne_nil (t : LineEnd) : t.bytes ≠ [] := by
  cases t <;> simp [bytes, kCRLF]

/-- A search from a position of the readable part finds the first line end in what follows it. -/
theorem findFrom_isFirst {b : Buffer} (hvalid : b.Valid) (t : LineEnd) {skipped : Nat}
    (hskipped : skipped ≤ b.readableBytes) :
    ∃ r, t.findFrom b (b.peek + skipped) = some (r.map (b.peek + skipped + ·)) ∧
      Search.IsFirst t.bytes (b.readable.drop skipped) r := by
  have hreader := hvalid.reader_le
  have hstop : b.peek + skipped ≤ b.beginWrite := by
    unfold readableBytes at hskipped
    change b.readerIndex_ + skipped ≤ b.writerIndex_
    omega
  have hwindow : Slice.window b.buffer_ (b.peek + skipped) b.beginWrite = b.readable.drop skipped :=
    Slice.window_add _ _ _ _
  cases t with
  | crlf =>
    have hcrlf : kCRLF ≠ [] := by decide
    have hlength : (b.readable.drop skipped).length = b.beginWrite - (b.peek + skipped) := by
      rw [List.length_drop, hvalid.length_readable]
      exact Nat.sub_sub _ _ _
    refine ⟨_, ?_, Search.search_isFirst hcrlf (b.readable.drop skipped)⟩
    simp only [findFrom, findCRLFFrom, hwindow]
    by_cases hend : Search.search kCRLF (b.readable.drop skipped) = (b.readable.drop skipped).length
    · have hlast : b.peek + skipped + Search.search kCRLF (b.readable.drop skipped) = b.beginWrite := by omega
      rw [if_pos hend, if_pos hlast]
      simp [hstop]
    · have hlast : b.peek + skipped + Search.search kCRLF (b.readable.drop skipped) ≠ b.beginWrite := by omega
      rw [if_neg hend, if_neg hlast]
      simp [hstop]
  | eol =>
    refine ⟨_, ?_, Search.idxOf?_isFirst 10 (b.readable.drop skipped)⟩
    simp only [findFrom, findEOLFrom, Nat.add_sub_cancel' hstop, hwindow]
    simp [hstop]

/-- The search without a start is the one from the beginning of the readable part. -/
theorem findFrom_peek {b : Buffer} (hvalid : b.Valid) (t : LineEnd) : t.findFrom b b.peek = some (t.find b) := by
  have hreader : b.peek ≤ b.beginWrite := hvalid.reader_le
  have hall : b.peek + b.readableBytes = b.peek + (b.beginWrite - b.peek) := rfl
  cases t with
  | crlf => simp [findFrom, find, findCRLFFrom, findCRLF, hreader]
  | eol => simp [findFrom, find, findEOLFrom, findEOL, hreader, hall]

theorem find_isFirst {b : Buffer} (hvalid : b.Valid) (t : LineEnd) :
    ∃ r, t.find b = r.map (b.peek + ·) ∧ Search.IsFirst t.bytes b.readable r := by
  obtain ⟨r, hfind, hfirst⟩ := t.findFrom_isFirst hvalid (Nat.zero_le b.readableBytes)
  rw [Nat.add_zero, t.findFrom_peek hvalid] at hfind
  exact ⟨r, Option.some.inj hfind, hfirst⟩

end LineEnd

/-- The calls that only add bytes at the end of the readable part. -/
def Call.extends : Call → Bool
  | .basic (.append _ _) | .basic (.ensureWritableBytes _) | .basic (.fill _) | .hasWritten _ | .appendInt _ _
  | .readFd _ => true
  | _ => false

/-- Such a call leaves the readable bytes in front of what it adds. -/
theorem Call.readable_prefix {b next : Buffer} (hvalid : b.Valid) {c : Call} (hpre : c.Pre b)
    (hextends : c.extends = true) (hrun : c.run b = some next) : next.Valid ∧ b.readable <+: next.readable := by
  obtain ⟨next', hrun', heffect⟩ := c.run_effect hvalid hpre
  obtain rfl : next' = next := Option.some.inj (hrun'.symm.trans hrun)
  refine ⟨heffect.valid, ?_⟩
  have hrefines (op : Op) (hop : op.Pre b) (hrun : op.run b = some next') : next'.readable = op.onQueue b.readable := by
    obtain ⟨_, hstep, _, hqueue⟩ := op.run_refines hvalid hop
    obtain rfl := Option.some.inj (hstep.symm.trans hrun)
    exact hqueue
  cases c with
  | basic op =>
    rw [hrefines op hpre hrun]
    cases op with
    | append overload data => exact List.prefix_append _ _
    | ensureWritableBytes len => exact List.prefix_rfl
    | fill data => exact List.prefix_append _ _
    | _ => simp [Call.extends] at hextends
  | hasWritten len =>
    have hlen : len ≤ b.writableBytes := hpre
    obtain rfl : { b with writerIndex_ := b.writerIndex_ + len } = next' := by
      simpa [Call.run, Buffer.hasWritten, hlen] using hrun
    exact (List.take_prefix_take_left (Nat.le_add_right _ _)).drop _
  | appendInt host v =>
    have happend : b.append v.encoding = some next' := (v.append_eq host b).symm.trans hrun
    rw [hrefines (.append .chars v.encoding) trivial happend]
    exact List.prefix_append _ _
  | prependInt host v => simp [Call.extends] at hextends
  | readInt host t => simp [Call.extends] at hextends
  | readFd result =>
    cases result with
    | failed errno =>
      obtain rfl : b = next' := Option.some.inj hrun
      exact List.prefix_rfl
    | filled data =>
      obtain ⟨read, hread, _, hcontents⟩ := readFd_spec hvalid data
      simp only [Call.run, hread, Option.map_some, Option.some.injEq] at hrun
      rw [← hrun, hcontents]
      exact List.prefix_append _ _

/-- So does a whole run of them. -/
theorem readable_prefix {b next : Buffer} {calls : List Call} (hvalid : b.Valid)
    (hpre : Run.Along Call.run Call.Pre b calls) (hextends : ∀ c ∈ calls, c.extends = true)
    (hrun : Run.exec Call.run b calls = some next) : next.Valid ∧ b.readable <+: next.readable := by
  refine Run.exec_invariant (I := fun next => next.Valid ∧ b.readable <+: next.readable) ?_ ⟨hvalid, List.prefix_rfl⟩
    (hpre.and (Run.Along.of_labels hextends)) hrun
  rintro s c t ⟨hs, hprefix⟩ ⟨hc, hextends⟩ hstep
  obtain ⟨ht, hmore⟩ := Call.readable_prefix hs hc hextends hstep
  exact ⟨ht, hprefix.trans hmore⟩

/-- Searching for the end of a line in a buffer that fills up. Through every run of calls that add to the buffer, a
line end that was found stays the first one at its place behind `peek()`, and retrieving until past it takes away the
line and its end; and where none was found, a search may go on from the last byte that was already there (from behind
it for a single-byte end) and finds what a search of everything would find. -/
theorem line_end_found_once {b next : Buffer} {calls : List Call} (hvalid : b.Valid)
    (hpre : Run.Along Call.run Call.Pre b calls) (hextends : ∀ c ∈ calls, c.extends = true)
    (hrun : Run.exec Call.run b calls = some next) (t : LineEnd) :
    (∀ stop, t.find b = some stop → ∃ line rest : List UInt8, b.peek + line.length = stop ∧
      (∀ i, ¬Search.Occurs t.bytes line i) ∧ next.readable = line ++ (t.bytes ++ rest) ∧
      t.find next = some (next.peek + line.length) ∧
      ∃ left, next.retrieveUntil (next.peek + line.length + t.bytes.length) = some left ∧ left.readable = rest) ∧
    (t.find b = none → ∀ skipped, skipped + t.bytes.length ≤ b.readableBytes + 1 ∨ skipped = 0 →
      t.findFrom next (next.peek + skipped) = some (t.find next)) := by
  obtain ⟨hnext, more, hmore⟩ := readable_prefix hvalid hpre hextends hrun
  obtain ⟨r, hfind, hfirst⟩ := t.find_isFirst hvalid
  obtain ⟨s, hfind', hfirst'⟩ := t.find_isFirst hnext
  have hbytes := t.bytes_ne_nil
  constructor
  · intro stop hstop
    obtain ⟨i, rfl, rfl⟩ := Option.map_eq_some_iff.mp (hfind.symm.trans hstop)
    have hgrown : Search.IsFirst t.bytes next.readable (some i) := hmore ▸ hfirst.append hbytes more
    have hroom := hgrown.1.add_length_le hbytes
    have htake : (next.readable.take i).length = i := by
      rw [List.length_take]
      omega
    obtain rfl := hfirst'.unique hgrown
    refine ⟨next.readable.take i, next.readable.drop (i + t.bytes.length), by rw [htake],
      hgrown.not_occurs_take hbytes, hgrown.1.split, ?_, ?_⟩
    · rw [hfind', htake]
      rfl
    · obtain ⟨left, hleft, _, hrest⟩ := retrieveUntil_spec hnext (hnext.length_readable ▸ hroom)
      refine ⟨left, ?_, hrest⟩
      rw [htake, Nat.add_assoc]
      exact hleft
  · intro hnone skipped hskipped
    have hr : r = none := Option.map_eq_none_iff.mp (hfind.symm.trans hnone)
    subst hr
    have hlength := congrArg List.length hmore
    rw [List.length_append, hvalid.length_readable, hnext.length_readable] at hlength
    have hpos := List.length_pos_iff.mpr hbytes
    have hwithin : skipped ≤ next.readableBytes := by omega
    obtain ⟨r, hfrom, hrest⟩ := t.findFrom_isFirst hnext hwithin
    rw [← hmore] at hrest
    have hresumed := hfirst.resume (k := skipped) (by rw [hvalid.length_readable]; omega) hrest
    rw [hmore] at hresumed
    rw [hfrom, hfind', hfirst'.unique hresumed, Option.map_map]
    congr 2
    funext i
    exact Nat.add_assoc _ _ _

/-- A line end split between two arrivals: the search that starts at its first byte finds it, and one that starts
behind the bytes that were already searched does not. -/
theorem line_end_found_once_split : ∃ next : Buffer,
    Run.exec Call.run ⟨[0, 0, 0, 0, 0, 0, 0, 0, 97, 13, 0], 8, 10⟩
      [.readFd (.filled [10, 98]), .basic (.append .string [13, 10])] = some next ∧
    findCRLF ⟨[0, 0, 0, 0, 0, 0, 0, 0, 97, 13, 0], 8, 10⟩ = none ∧ next.findCRLF = some (next.peek + 1) ∧
    next.findCRLFFrom (next.peek + 1) = some (some (next.peek + 1)) ∧
    next.findCRLFFrom (next.peek + 2) = some (some (next.peek + 4)) := by
  apply Run.Reaches.exists_of (p := fun next => next.findCRLF = some (next.peek + 1) ∧
    next.findCRLFFrom (next.peek + 2) = some (some (next.peek + 4)))
  · decide +kernel
  · rintro next hrun ⟨hfind, hlate⟩
    have hspec := line_end_found_once ⟨by decide, by decide, by decide⟩ (by decide) (by decide) hrun .crlf
    have hresumed : next.findCRLFFrom (next.peek + 1) = some next.findCRLF := hspec.2 (by decide) 1 (by decide)
    exact ⟨by decide, hfind, by rw [hresumed, hfind], hlate⟩

end mudong.ev.Buffer
