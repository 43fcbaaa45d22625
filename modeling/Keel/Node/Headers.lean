import Keel.Common.Codec
import Keel.Common.Utf8
import Keel.Node.Model.Targets
/-!
# Replication headers

A header is written in front of a snapshot, on a connection that then
carries the stream of the snapshot itself: whoever reads the header has to
stop exactly where the stream begins. Each part of a header is read as
itself, whatever follows it (`Reader.Reads`), and with its parts the
header.
-/

namespace Keel

namespace Node

open Agent (Header)

/-! ## Lengths -/

/-- Four bytes hold a number of 32 bits. -/
theorem fromBeBytes_toBeBytes {n : ℕ} (h : n < 2 ^ 32) : fromBeBytes (toBeBytes n) = n := by
  simp only [fromBeBytes, toBeBytes, List.foldl_cons, List.foldl_nil, UInt8.toNat_ofNat']
  omega

theorem length_toBeBytes (n : ℕ) : (toBeBytes n).length = 4 := rfl

/-! ## Parts -/

/-- As many bytes as are asked for. -/
theorem reads_exact (w : List UInt8) : Reader.Reads (readExact w.length) w w where
  append rest := by
    unfold readExact
    rw [if_neg (by simp), List.take_left, List.drop_left]
  cut p hp hne := by
    have hlen : p.length < w.length :=
      lt_of_le_of_ne hp.length_le fun h => hne (hp.eq_of_length h)
    exact ⟨.unexpectedEof, by unfold readExact; rw [if_pos hlen]⟩

theorem reads_exact_of_length {n : ℕ} {w : List UInt8} (h : w.length = n) :
    Reader.Reads (readExact n) w w := h ▸ reads_exact w

/-- The bytes of a string, once they are read. -/
def utf8 (buf : List UInt8) : Reader ReadError UInt8 String :=
  match String.fromUTF8? ⟨buf.toArray⟩ with
  | some s => Reader.ret s
  | none => fun _ => .error .invalidData

theorem readLenPrefixed_eq : readLenPrefixed = Reader.andThen (readExact 4) fun lenBuf =>
    Reader.andThen (readExact (fromBeBytes lenBuf)) utf8 := by
  funext stream
  simp only [Reader.andThen_apply]
  unfold readLenPrefixed utf8
  refine congrArg (readExact 4 stream >>= ·) (funext fun lenBuf => ?_)
  refine congrArg (readExact (fromBeBytes lenBuf.1) lenBuf.2 >>= ·) (funext fun buf => ?_)
  cases h : String.fromUTF8? ⟨buf.1.toArray⟩ <;> simp only [h] <;> rfl

/-- **A string behind its length**, where the length is one of 32 bits. -/
theorem reads_lenPrefixed {s : String} (h : s.utf8ByteSize < 2 ^ 32) :
    Reader.Reads readLenPrefixed (writeLenPrefixed s) s := by
  have hlen : (s.toUTF8.data.toList).length = fromBeBytes (toBeBytes s.utf8ByteSize) := by
    rw [length_toUTF8, fromBeBytes_toBeBytes h]
  have hutf8 : utf8 s.toUTF8.data.toList = Reader.ret s := by
    unfold utf8
    rw [fromUTF8?_toUTF8]
  rw [readLenPrefixed_eq, writeLenPrefixed, Nat.mod_eq_of_lt h]
  refine (reads_exact_of_length (length_toBeBytes _)).andThen ?_
  have hbytes : Reader.Reads (Reader.andThen (readExact _) utf8) (s.toUTF8.data.toList ++ []) s :=
    (reads_exact_of_length hlen).andThen (hutf8 ▸ Reader.Reads.ret s)
  rwa [List.append_nil] at hbytes

/-! ## Headers -/

/-- The strings of a header are not longer than a length prefix counts. -/
structure Fits (header : Header) : Prop where
  replicaName : header.replicaName.utf8ByteSize < 2 ^ 32
  snapshotId : header.snapshotId.utf8ByteSize < 2 ^ 32
  baseSnapshotId : ∀ base ∈ header.baseSnapshotId, base.utf8ByteSize < 2 ^ 32

/-- The base, behind the byte that says whether there is one. -/
def readBase (hasBase : List UInt8) : Reader ReadError UInt8 (Option String) :=
  if hasBase = [0] then Reader.ret none
  else Reader.andThen readLenPrefixed fun base => Reader.ret (some base)

theorem readHeader_eq : readHeader =
    Reader.andThen readLenPrefixed fun replicaName =>
      Reader.andThen readLenPrefixed fun snapshotId =>
        Reader.andThen (Reader.andThen (readExact 1) readBase) fun base =>
          Reader.ret ⟨replicaName, snapshotId, base⟩ := by
  funext stream
  simp only [Reader.andThen_apply, bind_assoc]
  unfold readHeader
  refine congrArg (readLenPrefixed stream >>= ·) (funext fun name => ?_)
  refine congrArg (readLenPrefixed name.2 >>= ·) (funext fun id => ?_)
  refine congrArg (readExact 1 id.2 >>= ·) (funext fun hasBase => ?_)
  unfold readBase
  by_cases hb : hasBase.1 = [0]
  · simp only [hb, if_true]
    rfl
  · simp only [hb, if_false, Reader.andThen_apply, bind_assoc]
    rfl

/-- The base as it is written. -/
def writeBase : Option String → List UInt8
  | none => [0]
  | some base => 1 :: writeLenPrefixed base

theorem reads_base {base : Option String} (h : ∀ b ∈ base, b.utf8ByteSize < 2 ^ 32) :
    Reader.Reads (Reader.andThen (readExact 1) readBase) (writeBase base) base := by
  cases base with
  | none =>
    have hnone : readBase [0] = Reader.ret none := rfl
    have hret : Reader.Reads (readBase [0]) [] none := hnone ▸ Reader.Reads.ret none
    exact (reads_exact [0]).andThen hret
  | some b =>
    have hsome : readBase [1] = Reader.andThen readLenPrefixed fun base =>
      Reader.ret (some base) := rfl
    have hb : Reader.Reads (readBase [1]) (writeLenPrefixed b ++ []) (some b) :=
      hsome ▸ (reads_lenPrefixed (h b rfl)).andThen (Reader.Reads.ret (some b))
    rw [List.append_nil] at hb
    exact (reads_exact [1]).andThen hb

/-- **A header that fits** is read as itself. -/
theorem reads_header {header : Header} (h : Fits header) :
    Reader.Reads readHeader (writeHeader header) header := by
  have hbase : Reader.Reads (Reader.andThen (Reader.andThen (readExact 1) readBase) fun base =>
      Reader.ret ⟨header.replicaName, header.snapshotId, base⟩)
      (writeBase header.baseSnapshotId ++ []) header :=
    (reads_base h.baseSnapshotId).andThen (Reader.Reads.ret header)
  rw [List.append_nil] at hbase
  rw [readHeader_eq]
  exact (reads_lenPrefixed h.replicaName).andThen
    ((reads_lenPrefixed h.snapshotId).andThen hbase)

/-- **The header and the stream behind it.** A header whose strings fit
their length prefixes is read back as it was written, and what follows it
is left unread, whatever that is. A connection that ends inside a header
yields none, and no header is the beginning of another. -/
theorem header_codec {header : Header} (h : Fits header) :
    (∀ rest, readHeader (writeHeader header ++ rest) = .ok (header, rest)) ∧
      (∀ cut, cut <+: writeHeader header → cut ≠ writeHeader header →
        ∃ e, readHeader cut = .error e) ∧
      ∀ header', Fits header' → header ≠ header' →
        ¬ writeHeader header <+: writeHeader header' ∧
          ¬ writeHeader header' <+: writeHeader header := by
  have hreads := reads_header h
  refine ⟨hreads.append, hreads.cut, fun header' h' hne => ⟨fun hp => ?_, fun hp => ?_⟩⟩
  · exact hne (hreads.eq_of_begins (reads_header h') hp).2
  · exact hne ((reads_header h').eq_of_begins hreads hp).2.symm

namespace Sample

/-- A full snapshot, and one on top of it. -/
def full : Header := ⟨"web", "keel-repl-1", none⟩

def incremental : Header := ⟨"web", "keel-repl-2", some "keel-repl-1"⟩

theorem fits_full : Fits full where
  replicaName := by decide +kernel
  snapshotId := by decide +kernel
  baseSnapshotId b hb := by cases hb

theorem fits_incremental : Fits incremental where
  replicaName := by decide +kernel
  snapshotId := by decide +kernel
  baseSnapshotId b hb := by
    cases hb
    decide +kernel

end Sample

theorem header_codec_sample :
    readHeader (writeHeader Sample.full ++ [1, 2]) = .ok (Sample.full, [1, 2]) ∧
      ¬ writeHeader Sample.full <+: writeHeader Sample.incremental := by
  have h := header_codec Sample.fits_full
  exact ⟨h.1 [1, 2], (h.2.2 Sample.incremental Sample.fits_incremental (by decide)).1⟩

end Node

end Keel
