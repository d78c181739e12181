import Libts.Bytestream

/-!
# Calls in any order

A stream is constructed once and then read and written in whatever order its caller likes.
It follows the bytes it was constructed with and those written since, and hands them out in
order (`Follows`), until a read asks for more than is left, or is made while there is no data
at all, or a stream without a buffer is written to. From then on it is broken: nothing is
read and nothing is written any more (`after_destruct`).
-/

namespace Libts
set_option autoImplicit false

namespace Bytestream

/-- A call on a stream. `skip` is `bytestream_read` with `data == NULL`. -/
inductive Call
  | read (size : Nat)
  | skip (size : Nat)
  | read8
  | read16
  | read32
  | read64
  | write (bytes : List UInt8)
  | write8 (value : UInt8)
  | write16 (value : UInt16)
  | write32 (value : UInt32)
  | write64 (value : UInt64)
deriving Repr, DecidableEq

/-- What a call hands back. -/
inductive Reply
  | nothing
  | copied (bytes : List UInt8)
  | value (value : Nat)
deriving Repr, DecidableEq

namespace Call

def run (s : Bytestream) : Call → Reply × Bytestream
  | read size =>
    let (bytes, s) := s.read size
    (.copied bytes, s)
  | skip size => (.nothing, s.skip size)
  | read8 =>
    let (value, s) := s.read8
    (.value value, s)
  | read16 =>
    let (value, s) := s.read16
    (.value value, s)
  | read32 =>
    let (value, s) := s.read32
    (.value value, s)
  | read64 =>
    let (value, s) := s.read64
    (.value value, s)
  | write bytes => (.nothing, s.write bytes)
  | write8 value => (.nothing, s.write8 value.toNat)
  | write16 value => (.nothing, s.write16 value.toNat)
  | write32 value => (.nothing, s.write32 value.toNat)
  | write64 value => (.nothing, s.write64 value.toNat)

/-- How many bytes a read asks for. -/
def reads : Call → Option Nat
  | read size => some size
  | skip size => some size
  | read8 => some 1
  | read16 => some 2
  | read32 => some 4
  | read64 => some 8
  | _ => none

/-- The bytes of a write. -/
def bytes : Call → List UInt8
  | write bytes => bytes
  | write8 value => BigEndian.bytes 1 value.toNat
  | write16 value => BigEndian.bytes 2 value.toNat
  | write32 value => BigEndian.bytes 4 value.toNat
  | write64 value => BigEndian.bytes 8 value.toNat
  | _ => []

/-- `read8` to `read64`. -/
def typed : Call → Bool
  | read8 | read16 | read32 | read64 => true
  | _ => false

/-- What a read makes of the bytes it gets, the first of them the most significant one. -/
def reply (call : Call) (bytes : List UInt8) : Reply :=
  match call with
  | read _ => .copied bytes
  | skip _ => .nothing
  | _ => .value (BigEndian.value bytes)

variable {call : Call} {n : Nat}

theorem run_read (reads : call.reads = some n) (s : Bytestream) : call.run s = (call.reply (s.peek n), s.skip n) := by
  cases call <;> cases reads <;> rfl

theorem run_write (writes : call.reads = none) (s : Bytestream) : call.run s = (.nothing, s.write call.bytes) := by
  cases call <;> first | rfl | cases writes

theorem bytes_of_reads (reads : call.reads = some n) : call.bytes = [] := by
  cases call <;> first | rfl | cases reads

theorem exists_reads_of_typed (typed : call.typed = true) : ∃ n, call.reads = some n := by
  cases call <;> first | exact ⟨_, rfl⟩ | cases typed

theorem reply_of_typed (typed : call.typed = true) (bytes : List UInt8) :
    call.reply bytes = .value (BigEndian.value bytes) := by
  cases call <;> first | rfl | cases typed

end Call

/-! ## Runs -/

/-- The stream after some calls. -/
def after (s : Bytestream) (calls : List Call) : Bytestream := calls.foldl (fun s call => (call.run s).2) s

/-- How many bytes a call takes from the stream. -/
def taken (s : Bytestream) (call : Call) : Nat :=
  match call.reads with
  | some n => if s.short n then 0 else n
  | none => 0

/-- The bytes a call adds to the buffer. -/
def added (s : Bytestream) (call : Call) : List UInt8 := if s.attached then call.bytes else []

/-- How many bytes the successful reads of a run ask for. -/
def consumed (s : Bytestream) : List Call → Nat
  | [] => 0
  | call :: calls => s.taken call + consumed (call.run s).2 calls

/-- The bytes the writes of a run add to the buffer. -/
def written (s : Bytestream) : List Call → List UInt8
  | [] => []
  | call :: calls => s.added call ++ written (call.run s).2 calls

/-- How a stream is constructed, with what the caller promises: a block of memory has the size it is
said to have. -/
inductive Origin
  | memory (data : Option (List UInt8)) (size : Nat) (block : ∀ d, data = some d → size ≤ d.length)
  | buffer (b : Buffer)

namespace Origin

def stream : Origin → Bytestream
  | memory data size _ => construct data size
  | buffer b => constructBuffer b

/-- The bytes there are to read. -/
def bytes : Origin → List UInt8
  | memory data size _ => (data.getD []).take size
  | buffer b => b

/-- What the buffer holds, if there is one. -/
def contents : Origin → Buffer
  | memory _ _ _ => []
  | buffer b => b

end Origin

/-- `s` has handed out `k` of the bytes `l`. -/
inductive Follows : List UInt8 → Nat → Bytestream → Prop
  | buffer {b : Buffer} {k : Nat} (inside : k ≤ b.length) : Follows b k (reading b k)
  | memory {d : List UInt8} {size k : Nat} (block : size ≤ d.length) (inside : k ≤ size) :
      Follows (d.take size) k { construct (some d) size with begin := k }

/-- `s` has neither data nor a buffer. -/
structure Broken (s : Bytestream) : Prop where
  ordered : s.begin ≤ s.endPos
  detached : s.attached = false
  invalid : s.data = none

theorem broken_destruct (s : Bytestream) : s.destruct.Broken := ⟨Nat.le_refl 0, rfl, rfl⟩

/-! ## One call -/

section Step

variable {s : Bytestream} {l : List UInt8} {k n : Nat} {call : Call}

theorem Broken.short (broken : s.Broken) (n : Nat) : s.short n = true :=
  short_iff.2 (Or.inr (by rw [valid, broken.invalid]; rfl))

/-- A successful read copies from inside the data. -/
theorem Sound.copied (sound : s.Sound) (enough : s.short n = false) : s.begin + n ≤ (s.data.getD []).length := by
  have ordered := sound.ordered
  have there : n ≤ s.endPos - s.begin := (short_eq_false.1 enough).1
  calc s.begin + n ≤ s.endPos := by omega
    _ ≤ (s.data.getD []).length := sound.inside

/-- The zeros of a failed read. -/
theorem Call.run_destruct (typed : call.typed = true) (s : Bytestream) : (call.run s.destruct).1 = .value 0 := by
  obtain ⟨n, reads⟩ := exists_reads_of_typed typed
  have zeros : s.destruct.peek n = List.replicate n 0 := if_pos ((broken_destruct s).short n)
  rw [run_read reads, zeros, reply_of_typed typed, BigEndian.value_replicate_zero]

/-- Nothing brings a broken stream back. -/
theorem Broken.run (broken : s.Broken) (call : Call) : (call.run s).2 = s.destruct := by
  cases reads : call.reads with
  | some n => rw [Call.run_read reads, skip_of_short (broken.short n)]
  | none => rw [Call.run_write reads, write, broken.detached, if_neg Bool.false_ne_true]

theorem taken_of_reads (reads : call.reads = some n) (s : Bytestream) : s.taken call = if s.short n then 0 else n := by
  rw [taken, reads]

theorem taken_of_writes (writes : call.reads = none) (s : Bytestream) : s.taken call = 0 := by
  rw [taken, writes]

theorem added_of_reads (reads : call.reads = some n) (s : Bytestream) : s.added call = [] := by
  rw [added, Call.bytes_of_reads reads, ite_self]

theorem store_run (s : Bytestream) (call : Call) : (call.run s).2.store = s.store ++ s.added call := by
  cases reads : call.reads with
  | some n =>
    rw [Call.run_read reads, added_of_reads reads, List.append_nil, skip]
    split <;> rfl
  | none =>
    rw [Call.run_write reads, added]
    cases attached : s.attached with
    | false =>
      rw [write, attached, if_neg Bool.false_ne_true, if_neg Bool.false_ne_true, List.append_nil]
      rfl
    | true => rw [store_write attached, if_pos rfl]

section Following

variable (follows : Follows l k s)

include follows

theorem Follows.inside : k ≤ l.length := by
  cases follows with
  | buffer inside => exact inside
  | memory block inside =>
    rw [List.length_take]
    omega

theorem Follows.size : s.size = l.length - k := by
  cases follows with
  | buffer inside => rfl
  | memory block inside =>
    rw [List.length_take, Nat.min_eq_left block]
    rfl

theorem Follows.sound : s.Sound := by
  cases follows with
  | buffer inside => exact sound_reading inside
  | memory block inside => exact ⟨inside, block, fun attached => absurd attached Bool.false_ne_true⟩

/-- What is handed out next. -/
theorem Follows.peek (enough : s.short n = false) : s.peek n = (l.drop k).take n := by
  have size := follows.size
  have there := (short_eq_false.1 enough).1
  rw [Bytestream.peek, enough, if_neg Bool.false_ne_true]
  cases follows with
  | buffer _ =>
    have data : (bufferData l).getD [] = l := by cases l <;> rfl
    exact congrArg (fun bytes => (bytes.drop k).take n) data
  | @memory d _ _ block _ =>
    rw [List.length_take, Nat.min_eq_left block] at size
    rw [List.drop_take, List.take_take, Nat.min_eq_left (by omega)]
    rfl

theorem Follows.skip (enough : s.short n = false) : Follows l (k + n) (s.skip n) := by
  have size := follows.size
  have inside := follows.inside
  have there := (short_eq_false.1 enough).1
  rw [Bytestream.skip, enough, if_neg Bool.false_ne_true]
  cases follows with
  | buffer _ =>
    have moved : k + n ≤ l.length := by omega
    exact Follows.buffer moved
  | @memory d _ _ block _ =>
    rw [List.length_take, Nat.min_eq_left block] at size inside
    exact Follows.memory block (by omega)

theorem Follows.write (attached : s.attached = true) (as : List UInt8) : Follows (l ++ as) k (s.write as) := by
  cases follows with
  | buffer inside =>
    rw [write_reading]
    refine Follows.buffer ?_
    rw [List.length_append]
    omega
  | memory => cases attached

/-- A call leaves the stream following its bytes, or broken. -/
theorem Follows.run (call : Call) :
    Follows (l ++ s.added call) (k + s.taken call) (call.run s).2 ∨ (call.run s).2.Broken := by
  cases reads : call.reads with
  | some n =>
    rw [Call.run_read reads, added_of_reads reads, List.append_nil, taken_of_reads reads]
    cases short : s.short n with
    | true =>
      right
      rw [skip_of_short short]
      exact broken_destruct s
    | false =>
      left
      rw [if_neg Bool.false_ne_true]
      exact follows.skip short
  | none =>
    rw [Call.run_write reads, taken_of_writes reads, added]
    cases attached : s.attached with
    | true =>
      left
      rw [if_pos rfl]
      exact follows.write attached call.bytes
    | false =>
      right
      rw [Bytestream.write, attached, if_neg Bool.false_ne_true]
      exact broken_destruct s

end Following

end Step

/-! ## Any number of calls -/

section Runs

variable (s : Bytestream) (calls : List Call) (origin : Origin)

/-- A stream once destructed stays as it is. -/
theorem after_destruct : s.destruct.after calls = s.destruct := by
  induction calls with
  | nil => rfl
  | cons call calls ih =>
    have step : (call.run s.destruct).2 = s.destruct := (broken_destruct s).run call
    rw [after, List.foldl_cons, step]
    exact ih

/-- A failed read has every later call made on a destructed stream. -/
theorem after_failed {s : Bytestream} {call : Call} {n : Nat} (reads : call.reads = some n) (short : s.short n = true)
    (later : List Call) : s.after (call :: later) = s.destruct := by
  rw [after, List.foldl_cons, Call.run_read reads, skip_of_short short]
  exact after_destruct s later

theorem spent_after_failed {s : Bytestream} {call : Call} {n : Nat} (reads : call.reads = some n)
    (short : s.short n = true) (later : List Call) :
    let t := s.after (call :: later)
    t.size = 0 ∧ t.valid = false ∧ t.store = s.store ∧
      ∀ next : Call, next.typed = true → (next.run t).1 = .value 0 := by
  intro t
  have spent : t = s.destruct := after_failed reads short later
  rw [spent]
  exact ⟨rfl, rfl, rfl, fun next typed => Call.run_destruct typed s⟩

theorem store_after : (s.after calls).store = s.store ++ s.written calls := by
  induction calls generalizing s with
  | nil => exact (List.append_nil _).symm
  | cons call calls ih =>
    rw [after, List.foldl_cons, ← after, ih, store_run, written, List.append_assoc]

theorem Broken.after {s : Bytestream} (broken : s.Broken) : (s.after calls).Broken := by
  cases calls with
  | nil => exact broken
  | cons call calls =>
    rw [Bytestream.after, List.foldl_cons, broken.run, ← Bytestream.after, after_destruct]
    exact broken_destruct s

theorem Follows.after {s : Bytestream} {l : List UInt8} {k : Nat} (follows : Follows l k s) :
    Follows (l ++ s.written calls) (k + s.consumed calls) (s.after calls) ∨ (s.after calls).Broken := by
  induction calls generalizing s l k with
  | nil =>
    left
    rw [written, List.append_nil]
    exact follows
  | cons call calls ih =>
    rw [Bytestream.after, List.foldl_cons, ← Bytestream.after]
    obtain here | broken := follows.run call
    · have there := ih here
      rw [List.append_assoc, Nat.add_assoc] at there
      exact there
    · exact Or.inr (broken.after calls)

/-- A stream over no memory is broken before it is used. -/
theorem Origin.follows : Follows origin.bytes 0 origin.stream ∨ origin.stream.Broken := by
  cases origin with
  | memory data size block =>
    cases data with
    | none => exact Or.inr ⟨Nat.zero_le _, rfl, rfl⟩
    | some d => exact Or.inl (Follows.memory (block d rfl) (Nat.zero_le _))
  | buffer b => exact Or.inl (Follows.buffer (Nat.zero_le _))

theorem Origin.store_stream : origin.stream.store = origin.contents := by
  cases origin <;> rfl

theorem Origin.follows_after :
    Follows (origin.bytes ++ origin.stream.written calls) (origin.stream.consumed calls) (origin.stream.after calls) ∨
      (origin.stream.after calls).Broken := by
  obtain follows | broken := origin.follows
  · have run := follows.after calls
    rwa [Nat.zero_add] at run
  · exact Or.inr (broken.after calls)

end Runs

/-- **The error model.** However a stream is constructed and whatever is called on it: `begin` never
passes `end`, so the subtraction of `size` does not wrap, and the data of an attached stream is that of
its buffer; a successful read copies from inside the data and gets the bytes behind those of the
successful reads before it, from what the stream was constructed with and what was written since;
after a failed read no call has an effect any more. -/
theorem error_model (origin : Origin) (calls : List Call) :
    let s := origin.stream.after calls
    let bytes := origin.bytes ++ origin.stream.written calls
    let k := origin.stream.consumed calls
    s.begin ≤ s.endPos ∧
    (s.attached = true → s.data = bufferData s.store ∧ s.endPos = s.store.length) ∧
    s.store = origin.contents ++ origin.stream.written calls ∧
    ∀ call n, call.reads = some n →
      (s.short n = false →
        s.begin + n ≤ (s.data.getD []).length ∧ k + n ≤ bytes.length ∧
          (call.run s).1 = call.reply ((bytes.drop k).take n)) ∧
      (s.short n = true → ∀ later,
        let t := s.after (call :: later)
        t.size = 0 ∧ t.valid = false ∧ t.store = s.store ∧
          ∀ next : Call, next.typed = true → (next.run t).1 = .value 0) := by
  intro s bytes k
  have stored : s.store = origin.contents ++ origin.stream.written calls := by
    rw [store_after, origin.store_stream]
  obtain follows | broken := origin.follows_after calls
  · have sound := follows.sound
    refine ⟨sound.ordered, sound.buffered, stored, fun call n reads => ⟨fun enough => ?_, spent_after_failed reads⟩⟩
    have there : k + n ≤ bytes.length := (follows.skip enough).inside
    refine ⟨sound.copied enough, there, ?_⟩
    rw [Call.run_read reads, follows.peek enough]
  · refine ⟨broken.ordered, fun attached => ?_, stored, fun call n reads => ⟨fun enough => ?_, spent_after_failed reads⟩⟩
    · rw [broken.detached] at attached
      cases attached
    · rw [broken.short n] at enough
      cases enough

-- A buffer that never held a byte is no data, so even a read of nothing fails, for good.
example : ((constructBuffer []).after [.read 0, .write8 7]).store = [] := by decide
example : ((constructBuffer []).after [.write8 7, .read 0, .write8 8]).store = [7, 8] := by decide

end Bytestream
end Libts
