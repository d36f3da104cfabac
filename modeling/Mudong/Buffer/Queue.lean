import Mudong.Buffer.Spec
import Mudong.Lib.Run
import Mathlib.Logic.Function.Basic

namespace mudong.ev.Buffer

inductive AppendOverload where
  | string
  | stringView
  | chars
  | void
  deriving DecidableEq, Repr

def appendBy (b : Buffer) : AppendOverload → List UInt8 → Option Buffer
  | .string => b.appendString
  | .stringView => b.appendStringView
  | .chars => b.append
  | .void => b.appendVoid

/-- One call on one buffer. `fill` is a caller's copy to `beginWrite()` followed by `hasWritten`, and the
pointer handed to `retrieveUntil` is given by its distance from `peek()`. -/
inductive Op where
  | append (overload : AppendOverload) (data : List UInt8)
  | ensureWritableBytes (len : Nat)
  | fill (data : List UInt8)
  | prepend (data : List UInt8)
  | retrieve (len : Nat)
  | retrieveUntil (len : Nat)
  | retrieveInt64
  | retrieveInt32
  | retrieveInt16
  | retrieveInt8
  | retrieveAll
  | retrieveAsString (len : Nat)
  | retrieveAllAsString
  deriving DecidableEq, Repr

def Op.run (b : Buffer) : Op → Option Buffer
  | .append overload data => b.appendBy overload data
  | .ensureWritableBytes len => b.ensureWritableBytes len
  | .fill data => (b.writeAtEnd data).hasWritten data.length
  | .prepend data => b.prepend data
  | .retrieve len => b.retrieve len
  | .retrieveUntil len => b.retrieveUntil (b.peek + len)
  | .retrieveInt64 => b.retrieveInt64
  | .retrieveInt32 => b.retrieveInt32
  | .retrieveInt16 => b.retrieveInt16
  | .retrieveInt8 => b.retrieveInt8
  | .retrieveAll => some b.retrieveAll
  | .retrieveAsString len => (b.retrieveAsString len).map Prod.snd
  | .retrieveAllAsString => b.retrieveAllAsString.map Prod.snd

/-- The precondition the function asserts on entry. -/
def Op.Pre (b : Buffer) : Op → Prop
  | .append _ _ => True
  | .ensureWritableBytes _ => True
  | .fill data => data.length ≤ b.writableBytes
  | .prepend data => data.length ≤ b.prependableBytes
  | .retrieve len => len ≤ b.readableBytes
  | .retrieveUntil len => b.peek ≤ b.peek + len ∧ b.peek + len ≤ b.beginWrite
  | .retrieveInt64 => 8 ≤ b.readableBytes
  | .retrieveInt32 => 4 ≤ b.readableBytes
  | .retrieveInt16 => 2 ≤ b.readableBytes
  | .retrieveInt8 => 1 ≤ b.readableBytes
  | .retrieveAll => True
  | .retrieveAsString len => len ≤ b.readableBytes
  | .retrieveAllAsString => True

instance Op.decidablePre (b : Buffer) : ∀ op : Op, Decidable (op.Pre b)
  | .append _ _ => inferInstanceAs (Decidable True)
  | .ensureWritableBytes _ => inferInstanceAs (Decidable True)
  | .fill data => inferInstanceAs (Decidable (data.length ≤ b.writableBytes))
  | .prepend data => inferInstanceAs (Decidable (data.length ≤ b.prependableBytes))
  | .retrieve len => inferInstanceAs (Decidable (len ≤ b.readableBytes))
  | .retrieveUntil len => inferInstanceAs (Decidable (b.peek ≤ b.peek + len ∧ b.peek + len ≤ b.beginWrite))
  | .retrieveInt64 => inferInstanceAs (Decidable (8 ≤ b.readableBytes))
  | .retrieveInt32 => inferInstanceAs (Decidable (4 ≤ b.readableBytes))
  | .retrieveInt16 => inferInstanceAs (Decidable (2 ≤ b.readableBytes))
  | .retrieveInt8 => inferInstanceAs (Decidable (1 ≤ b.readableBytes))
  | .retrieveAll => inferInstanceAs (Decidable True)
  | .retrieveAsString len => inferInstanceAs (Decidable (len ≤ b.readableBytes))
  | .retrieveAllAsString => inferInstanceAs (Decidable True)

/-- The reference byte queue: what the call does to a plain list. -/
def Op.onQueue (queue : List UInt8) : Op → List UInt8
  | .append _ data => queue ++ data
  | .ensureWritableBytes _ => queue
  | .fill data => queue ++ data
  | .prepend data => data ++ queue
  | .retrieve len => queue.drop len
  | .retrieveUntil len => queue.drop len
  | .retrieveInt64 => queue.drop 8
  | .retrieveInt32 => queue.drop 4
  | .retrieveInt16 => queue.drop 2
  | .retrieveInt8 => queue.drop 1
  | .retrieveAll => []
  | .retrieveAsString len => queue.drop len
  | .retrieveAllAsString => []

/-- A call within its precondition succeeds, with every assertion it meets on the way, and acts on the
readable bytes as on the reference queue. -/
theorem Op.run_refines {b : Buffer} (hvalid : b.Valid) (op : Op) (hpre : op.Pre b) :
    ∃ next, op.run b = some next ∧ next.Valid ∧ next.readable = op.onQueue b.readable := by
  cases op with
  | append overload data =>
    obtain ⟨next, hnext⟩ := append_spec hvalid data
    cases overload <;> exact ⟨next, hnext⟩
  | ensureWritableBytes len => exact ensureWritableBytes_spec hvalid len
  | fill data => exact hasWritten_spec hvalid hpre
  | prepend data => exact prepend_spec hvalid hpre
  | retrieve len => exact retrieve_spec hvalid hpre
  | retrieveUntil len =>
    have hlen : len ≤ b.readableBytes := by
      obtain ⟨_, hstop⟩ := hpre
      unfold peek beginWrite at hstop
      unfold readableBytes
      omega
    exact retrieveUntil_spec hvalid hlen
  | retrieveInt64 => exact retrieve_spec hvalid hpre
  | retrieveInt32 => exact retrieve_spec hvalid hpre
  | retrieveInt16 => exact retrieve_spec hvalid hpre
  | retrieveInt8 => exact retrieve_spec hvalid hpre
  | retrieveAll => exact ⟨b.retrieveAll, rfl, retrieveAll_valid hvalid, readable_retrieveAll b⟩
  | retrieveAsString len =>
    obtain ⟨rest, hstring, hrest⟩ := retrieveAsString_spec hvalid hpre
    exact ⟨rest, by simp [Op.run, hstring], hrest⟩
  | retrieveAllAsString =>
    obtain ⟨rest, hstring, hrest, hdrop⟩ := retrieveAsString_spec hvalid (Nat.le_refl b.readableBytes)
    refine ⟨rest, by simp [Op.run, Buffer.retrieveAllAsString, hstring], hrest, ?_⟩
    rw [hdrop, ← hvalid.length_readable, List.drop_length]
    rfl

/-- One call on a family of named buffers, `swap` included. -/
inductive StoreOp (ι : Type) where
  | on (i : ι) (op : Op)
  | swap (i j : ι)
  deriving Repr

namespace StoreOp

variable {ι : Type} [DecidableEq ι]

def run (s : ι → Buffer) : StoreOp ι → Option (ι → Buffer)
  | .on i op => (op.run (s i)).map (Function.update s i)
  | .swap i j =>
    let (b, rhs) := (s i).swap (s j)
    some (Function.update (Function.update s i b) j rhs)

def Pre (s : ι → Buffer) : StoreOp ι → Prop
  | .on i op => op.Pre (s i)
  | .swap _ _ => True

instance decidablePre (s : ι → Buffer) : ∀ op : StoreOp ι, Decidable (op.Pre s)
  | .on i op => inferInstanceAs (Decidable (op.Pre (s i)))
  | .swap _ _ => inferInstanceAs (Decidable True)

def onQueues (queues : ι → List UInt8) : StoreOp ι → ι → List UInt8
  | .on i op => Function.update queues i (op.onQueue (queues i))
  | .swap i j => Function.update (Function.update queues i (queues j)) j (queues i)

/-- Every buffer is well formed and holds the bytes of its reference queue. -/
def Refines (s : ι → Buffer) (queues : ι → List UInt8) : Prop :=
  ∀ i, (s i).Valid ∧ (s i).readable = queues i

theorem Refines.update {s : ι → Buffer} {queues : ι → List UInt8} (h : Refines s queues) (i : ι) {b : Buffer}
    {queue : List UInt8} (hvalid : b.Valid) (hqueue : b.readable = queue) :
    Refines (Function.update s i b) (Function.update queues i queue) := by
  intro j
  by_cases hj : j = i
  · subst hj
    simp only [Function.update_self]
    exact ⟨hvalid, hqueue⟩
  · simp only [Function.update_of_ne hj]
    exact h j

theorem run_refines {s : ι → Buffer} {queues : ι → List UInt8} (h : Refines s queues) (op : StoreOp ι)
    (hpre : op.Pre s) : ∃ t, op.run s = some t ∧ Refines t (op.onQueues queues) := by
  cases op with
  | on i op =>
    obtain ⟨next, hrun, hvalid, hqueue⟩ := op.run_refines (h i).1 hpre
    rw [(h i).2] at hqueue
    exact ⟨Function.update s i next, by simp [run, hrun], h.update i hvalid hqueue⟩
  | swap i j => exact ⟨_, rfl, (h.update i (h j).1 (h j).2).update j (h i).1 (h i).2⟩

theorem exec_refines {s : ι → Buffer} {queues : ι → List UInt8} (h : Refines s queues) (ops : List (StoreOp ι))
    (hpre : Run.Along run Pre s ops) :
    ∃ t, Run.exec run s ops = some t ∧ Refines t (ops.foldl onQueues queues) := by
  induction ops generalizing s queues with
  | nil => exact ⟨s, rfl, h⟩
  | cons op ops ih =>
    obtain ⟨t, ht, hrefines⟩ := run_refines h op hpre.1
    obtain ⟨u, hu, hfinal⟩ := ih hrefines (hpre.cons ht).2
    exact ⟨u, Run.exec_cons_eq_some.mpr ⟨t, ht, hu⟩, hfinal⟩

/-- Freshly constructed buffers refine byte queues under every sequence of calls within their asserted
preconditions: construction and every call succeed with all assertions met, the indices stay ordered inside
the storage, and the readable bytes are those of the reference queues. -/
theorem buffers_refine_byte_queues (initialSize : ι → Nat) (ops : List (StoreOp ι))
    (hpre : Run.Along run Pre (fun i => init (initialSize i)) ops) :
    (∀ i, create (initialSize i) = some (init (initialSize i))) ∧
      ∃ t, Run.exec run (fun i => init (initialSize i)) ops = some t ∧
        ∀ i, (t i).readerIndex_ ≤ (t i).writerIndex_ ∧ (t i).writerIndex_ ≤ (t i).buffer_.length ∧
          (t i).readable = ops.foldl onQueues (fun _ => []) i := by
  have hstart : Refines (fun i : ι => init (initialSize i)) (fun _ => []) :=
    fun i => ⟨init_valid (initialSize i), readable_init (initialSize i)⟩
  obtain ⟨t, ht, hrefines⟩ := exec_refines hstart ops hpre
  refine ⟨fun i => create_eq_init (initialSize i), t, ht, fun i => ?_⟩
  obtain ⟨hvalid, hqueue⟩ := hrefines i
  exact ⟨hvalid.reader_le, hvalid.writer_le, hqueue⟩

/-- A run that grows, retrieves, prepends, slides and swaps. -/
theorem buffers_refine_byte_queues_two :
    ∃ t, Run.exec run (fun _ : Bool => init 4)
        [.on true (.append .chars [1, 2, 3, 4, 5, 6]), .on true (.retrieve 5), .on true (.prepend [9, 9]),
          .on true (.ensureWritableBytes 3), .on true (.fill [7]), .swap true false] = some t ∧
      (t false).readable = [9, 9, 6, 7] ∧ (t true).readable = [] := by
  obtain ⟨_, t, ht, h⟩ := buffers_refine_byte_queues (fun _ : Bool => 4)
    [.on true (.append .chars [1, 2, 3, 4, 5, 6]), .on true (.retrieve 5), .on true (.prepend [9, 9]),
      .on true (.ensureWritableBytes 3), .on true (.fill [7]), .swap true false] (by decide)
  exact ⟨t, ht, (h false).2.2.trans (by decide), (h true).2.2.trans (by decide)⟩

end StoreOp

end mudong.ev.Buffer
