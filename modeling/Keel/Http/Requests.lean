import Keel.Http.Heads
/-!
# Requests, however they arrive

A request is read as it arrives, in reads whose sizes the network decides.
What is read from it does not depend on them: it is `expected`, which is
said of the bytes alone. There is one exception. The length that is
claimed for the body is added to that of the head before it is compared
with the limit, and where that sum is past 64 bits (`Overflows`) some
reads end in a panic.
-/

namespace Keel

namespace Http

variable {ε : Type} {maxMessageBytes : ℕ} {build : Build}
variable {parse : List UInt8 → Parsed RequestHead} {ending : Option ε}

/-! ## The head -/

section Head

variable {buf : List UInt8} {chunks : List (List UInt8)} {len : ℕ} {head : RequestHead}

/-- What the loop does where the head is not complete. -/
theorem readHead_of_incomplete (hbuf : parse buf = .incomplete)
    (hlen : buf.length < maxMessageBytes) :
    readHead maxMessageBytes parse ending buf chunks = match chunks with
      | [] => atEnd ending
      | chunk :: chunks => readHead maxMessageBytes parse ending (buf ++ chunk) chunks := by
  conv_lhs => unfold readHead
  cases chunks <;> simp only [hbuf, if_neg (not_le_of_gt hlen)]

theorem readHead_of_complete (hbuf : parse buf = .complete len head) :
    readHead maxMessageBytes parse ending buf chunks = .ok (some ((len, head), buf, chunks)) := by
  unfold readHead
  rw [hbuf]

theorem readHead_of_max_le (hbuf : parse buf = .incomplete) (hlen : maxMessageBytes ≤ buf.length) :
    readHead maxMessageBytes parse ending buf chunks = .ok none := by
  unfold readHead
  rw [hbuf]
  simp only [if_pos hlen]

/-- **A head that arrives is found**, unless it is longer than a message
may be and the loop gives up before. -/
theorem readHead_complete (hparse : Incremental parse) :
    ∀ buf, parse (buf ++ chunks.flatten) = .complete len head →
      (∃ buf' chunks', readHead maxMessageBytes parse ending buf chunks =
          .ok (some ((len, head), buf', chunks')) ∧
          buf' ++ chunks'.flatten = buf ++ chunks.flatten ∧ len ≤ buf'.length) ∨
        readHead maxMessageBytes parse ending buf chunks = .ok none ∧ maxMessageBytes < len := by
  induction chunks with
  | nil =>
    intro buf h
    rw [List.flatten_nil, List.append_nil] at h
    exact .inl ⟨buf, [], readHead_of_complete h, rfl, hparse.le _ _ _ h⟩
  | cons chunk chunks ih =>
    intro buf h
    by_cases hle : len ≤ buf.length
    · exact .inl ⟨buf, _, readHead_of_complete (hparse.of_append h hle), rfl, hle⟩
    · have hbuf := hparse.incomplete_of_append h (not_le.1 hle)
      by_cases hmax : maxMessageBytes ≤ buf.length
      · exact .inr ⟨readHead_of_max_le hbuf hmax, by omega⟩
      · rw [readHead_of_incomplete hbuf (not_le.1 hmax), List.flatten_cons, ← List.append_assoc]
        rw [List.flatten_cons, ← List.append_assoc] at h
        exact ih _ h

/-- A head is found in what has been read, or after one more read below
the limit. -/
theorem readHead_cases {buf buf' : List UInt8} {chunks' : List (List UInt8)}
    (h : readHead maxMessageBytes parse ending buf chunks =
      .ok (some ((len, head), buf', chunks'))) :
    (parse buf = .complete len head ∧ buf' = buf) ∨
      ∃ chunk rest, chunks = chunk :: rest ∧ buf.length < maxMessageBytes ∧
        readHead maxMessageBytes parse ending (buf ++ chunk) rest =
          .ok (some ((len, head), buf', chunks')) := by
  cases hparse : parse buf with
  | complete len' head' =>
    rw [readHead_of_complete hparse] at h
    cases h
    exact .inl ⟨rfl, rfl⟩
  | malformed e =>
    unfold readHead at h
    rw [hparse] at h
    cases h
  | incomplete =>
    by_cases hmax : maxMessageBytes ≤ buf.length
    · rw [readHead_of_max_le hparse hmax] at h
      cases h
    · rw [readHead_of_incomplete hparse (not_le.1 hmax)] at h
      cases chunks with
      | nil => cases ending <;> cases h
      | cons chunk rest => exact .inr ⟨chunk, rest, rfl, not_le.1 hmax, h⟩

/-- What is found was found in what has been read by then, and no read
goes on past the limit. -/
theorem readHead_some {buf' : List UInt8} {chunks' : List (List UInt8)} :
    ∀ buf, (∀ chunk ∈ chunks, chunk.length ≤ 4096) → buf.length < maxMessageBytes + 4096 →
      readHead maxMessageBytes parse ending buf chunks = .ok (some ((len, head), buf', chunks')) →
      parse buf' = .complete len head ∧ buf'.length < maxMessageBytes + 4096 := by
  induction chunks with
  | nil =>
    intro buf _ hbuf h
    obtain ⟨hparse, rfl⟩ | ⟨chunk, rest, hnil, -⟩ := readHead_cases h
    · exact ⟨hparse, hbuf⟩
    · cases hnil
  | cons chunk chunks ih =>
    intro buf hchunks hbuf h
    obtain ⟨hparse, rfl⟩ | ⟨_, _, hcons, hmax, hread⟩ := readHead_cases h
    · exact ⟨hparse, hbuf⟩
    · cases hcons
      have hchunk := hchunks chunk List.mem_cons_self
      refine ih _ (fun c hc => hchunks c (List.mem_cons_of_mem chunk hc)) ?_ hread
      rw [List.length_append]
      omega

/-- Where the head does not arrive, all is read up to the limit. -/
theorem readHead_incomplete (hparse : Incremental parse) :
    ∀ buf, parse (buf ++ chunks.flatten) = .incomplete →
      readHead maxMessageBytes parse ending buf chunks =
        if maxMessageBytes ≤ (buf ++ chunks.flatten).length then .ok none else atEnd ending := by
  induction chunks with
  | nil =>
    intro buf h
    rw [List.flatten_nil, List.append_nil] at h ⊢
    split
    · rename_i hmax
      exact readHead_of_max_le h hmax
    · rename_i hmax
      rw [readHead_of_incomplete h (not_le.1 hmax)]
  | cons chunk chunks ih =>
    intro buf h
    have hbuf := hparse.incomplete_of_incomplete h
    by_cases hmax : maxMessageBytes ≤ buf.length
    · rw [readHead_of_max_le hbuf hmax, if_pos (by rw [List.length_append]; omega)]
    · rw [readHead_of_incomplete hbuf (not_le.1 hmax), List.flatten_cons, ← List.append_assoc]
      rw [List.flatten_cons, ← List.append_assoc] at h
      exact ih _ h

/-- What is malformed is given up, at some read. -/
theorem readHead_malformed (hparse : Incremental parse) {e : String} :
    ∀ buf, parse (buf ++ chunks.flatten) = .malformed e →
      readHead maxMessageBytes parse ending buf chunks = .ok none := by
  induction chunks with
  | nil =>
    intro buf h
    rw [List.flatten_nil, List.append_nil] at h
    unfold readHead
    rw [h]
  | cons chunk chunks ih =>
    intro buf h
    cases hbuf : parse buf with
    | complete len head => cases (hparse.append hbuf _).symm.trans h
    | malformed e' =>
      unfold readHead
      rw [hbuf]
    | incomplete =>
      by_cases hmax : maxMessageBytes ≤ buf.length
      · exact readHead_of_max_le hbuf hmax
      · rw [List.flatten_cons, ← List.append_assoc] at h
        rw [readHead_of_incomplete hbuf (not_le.1 hmax)]
        exact ih _ h

/-- Reads below the limit that do not complete the head are gone past. -/
theorem readHead_append (hparse : Incremental parse) {before : List (List UInt8)} :
    ∀ buf, parse (buf ++ before.flatten) = .incomplete →
      (buf ++ before.flatten).length < maxMessageBytes →
      readHead maxMessageBytes parse ending buf (before ++ chunks) =
        readHead maxMessageBytes parse ending (buf ++ before.flatten) chunks := by
  induction before with
  | nil => intro buf _ _; rw [List.nil_append, List.flatten_nil, List.append_nil]
  | cons chunk before ih =>
    intro buf h hlen
    have hbuf := hparse.incomplete_of_incomplete h
    have hmax : buf.length < maxMessageBytes := by
      rw [List.length_append] at hlen
      omega
    rw [List.flatten_cons, ← List.append_assoc] at h hlen ⊢
    rw [List.cons_append, readHead_of_incomplete hbuf hmax]
    exact ih _ h hlen

end Head

/-! ## The body -/

theorem readBody_eq {totalLen : ℕ} {chunks : List (List UInt8)} :
    ∀ buf, totalLen ≤ (buf ++ chunks.flatten).length →
      ∃ buf', readBody ending totalLen buf chunks = .ok (some buf') ∧
        buf' <+: buf ++ chunks.flatten ∧ totalLen ≤ buf'.length := by
  induction chunks with
  | nil =>
    intro buf h
    rw [List.flatten_nil, List.append_nil] at h ⊢
    exact ⟨buf, by unfold readBody; rw [if_pos h], List.prefix_rfl, h⟩
  | cons chunk chunks ih =>
    intro buf h
    by_cases hle : totalLen ≤ buf.length
    · exact ⟨buf, by unfold readBody; rw [if_pos hle], List.prefix_append _ _, hle⟩
    · rw [List.flatten_cons, ← List.append_assoc] at h ⊢
      obtain ⟨buf', hread, hbuf'⟩ := ih _ h
      exact ⟨buf', by rw [readBody, if_neg hle, hread], hbuf'⟩

theorem readBody_short {totalLen : ℕ} {chunks : List (List UInt8)} :
    ∀ buf, (buf ++ chunks.flatten).length < totalLen →
      readBody ending totalLen buf chunks = atEnd ending := by
  induction chunks with
  | nil =>
    intro buf h
    rw [List.flatten_nil, List.append_nil] at h
    unfold readBody
    rw [if_neg (not_le.2 h)]
  | cons chunk chunks ih =>
    intro buf h
    have hle : ¬ totalLen ≤ buf.length := by
      rw [List.length_append] at h
      omega
    rw [List.flatten_cons, ← List.append_assoc] at h
    rw [readBody, if_neg hle]
    exact ih _ h

/-- What is sliced is what follows the head. -/
theorem slice_eq {buf bytes : List UInt8} {headerLen n : ℕ} (hbuf : buf <+: bytes)
    (hlen : headerLen + n ≤ buf.length) :
    slice buf headerLen (headerLen + n) = .ok ((bytes.drop headerLen).take n) := by
  obtain ⟨rest, rfl⟩ := hbuf
  unfold slice
  rw [if_neg (by omega), if_neg (by omega), List.drop_append_of_le_length (by omega),
    List.take_append_of_le_length (by rw [List.length_drop]; omega), List.drop_take,
    Nat.add_sub_cancel_left]

/-! ## A request -/

theorem parseUnsigned_lt {bits n : ℕ} {s : String} (h : parseUnsigned bits s = some n) :
    n < 2 ^ bits := by
  unfold parseUnsigned at h
  obtain ⟨m, -, hm⟩ := Option.bind_eq_some_iff.1 h
  by_cases hlt : m < 2 ^ bits
  · rw [if_pos hlt] at hm
    exact Option.some.inj hm ▸ hlt
  · rw [if_neg hlt] at hm
    cases hm

theorem contentLength_lt (head : RequestHead) : contentLength head < 2 ^ 64 := by
  unfold contentLength
  cases h : contentLength? head.headers with
  | none => exact Nat.two_pow_pos 64
  | some n =>
    unfold contentLength? at h
    obtain ⟨header, -, h⟩ := Option.bind_eq_some_iff.1 h
    obtain ⟨v, -, h⟩ := Option.bind_eq_some_iff.1 h
    exact parseUnsigned_lt h

/-- What is read, said of the bytes that arrive: the body is as long as the
head claims, where head and body are not longer than a message may be. -/
def expected (maxMessageBytes : ℕ) (parse : List UInt8 → Parsed RequestHead) (bytes : List UInt8)
    (ending : Option ε) : Except ε (Option ParsedRequest) :=
  match parse bytes with
  | .complete len head =>
    if maxMessageBytes < len + contentLength head then .ok none
    else if bytes.length < len + contentLength head then atEnd ending
    else .ok (some ⟨head.method.getD "", head.path.getD "",
      (bytes.drop len).take (contentLength head)⟩)
  | .malformed _ => .ok none
  | .incomplete => if maxMessageBytes ≤ bytes.length then .ok none else atEnd ending

/-- The head, of a length some reads find it at, claims a body so long that
the sum of the two is past 64 bits; in a release build, one that has
wrapped to below the limit. -/
def Overflows (maxMessageBytes : ℕ) (build : Build) (parse : List UInt8 → Parsed RequestHead)
    (bytes : List UInt8) : Prop :=
  ∃ len head, parse bytes = .complete len head ∧ len < maxMessageBytes + 4096 ∧
    2 ^ 64 ≤ len + contentLength head ∧
    (build = .release → len + contentLength head - 2 ^ 64 ≤ maxMessageBytes)

/-- A sum that is past 64 bits wraps once. -/
theorem wrap_eq {a b : ℕ} (ha : a < 2 ^ 64) (hb : b < 2 ^ 64) (h : 2 ^ 64 ≤ a + b) :
    (a + b) % 2 ^ 64 = a + b - 2 ^ 64 := by
  omega

/-- The sum is compared with the limit as it is, or it does not matter. -/
theorem Build.add_eq (build : Build) {a b : ℕ} (h : a + b < 2 ^ 64) :
    build.add a b = .ok (a + b) := by
  cases build with
  | debug => exact if_pos h
  | release => exact congrArg Except.ok (Nat.mod_eq_of_lt h)

theorem readRest_overlong {len : ℕ} {head : RequestHead} {buf : List UInt8}
    {chunks : List (List UInt8)} {totalLen : ℕ}
    (hadd : build.add len (contentLength head) = .ok totalLen) (hlen : maxMessageBytes < totalLen) :
    readRest maxMessageBytes build ending len head buf chunks = .ok (.ok none) := by
  unfold readRest
  rw [hadd]
  simp only [bind, Except.bind, if_pos hlen]
  rfl

/-- **The body**, where it is no longer than it may be and the sum is as it
is. -/
theorem readRest_eq {len : ℕ} {head : RequestHead} {buf bytes : List UInt8}
    {chunks : List (List UInt8)} (hbytes : buf ++ chunks.flatten = bytes)
    (hlen : len + contentLength head ≤ maxMessageBytes)
    (hadd : build.add len (contentLength head) = .ok (len + contentLength head)) :
    readRest maxMessageBytes build ending len head buf chunks =
      .ok (if bytes.length < len + contentLength head then atEnd ending
        else .ok (some ⟨head.method.getD "", head.path.getD "",
          (bytes.drop len).take (contentLength head)⟩)) := by
  unfold readRest
  rw [hadd]
  simp only [bind, Except.bind, if_neg (not_lt.2 hlen)]
  subst hbytes
  by_cases hshort : (buf ++ chunks.flatten).length < len + contentLength head
  · rw [if_pos hshort, readBody_short buf hshort]
    cases ending <;> rfl
  · obtain ⟨buf', hread, hbegins, hle⟩ := readBody_eq buf (not_lt.1 hshort)
    rw [if_neg hshort, hread]
    simp only [slice_eq hbegins hle]
    rfl

/-- **What is read of a request** is said of its bytes. -/
theorem readRequestFrom_eq (hparse : Incremental parse)
    (hlimit : maxMessageBytes + 4096 ≤ 2 ^ 64) (stream : Stream ε)
    (hsum : ¬ Overflows maxMessageBytes build parse stream.bytes) :
    readRequestFrom maxMessageBytes build parse stream =
      .ok (expected maxMessageBytes parse stream.bytes stream.ending) := by
  unfold expected readRequestFrom
  cases hbytes : parse stream.bytes with
  | malformed e => rw [readHead_malformed hparse [] hbytes]
  | incomplete =>
    have hread : readHead maxMessageBytes parse stream.ending [] stream.chunks =
        if maxMessageBytes ≤ stream.bytes.length then .ok none else atEnd stream.ending :=
      readHead_incomplete hparse [] hbytes
    rw [hread]
    by_cases hmax : maxMessageBytes ≤ stream.bytes.length
    · simp only [if_pos hmax]
    · simp only [if_neg hmax]
      cases stream.ending <;> rfl
  | complete len head =>
    simp only
    rcases readHead_complete hparse [] hbytes with ⟨buf, chunks, hread, hrest, -⟩ | ⟨hread, hmax⟩
    · rw [hread]
      have hlen : len < maxMessageBytes + 4096 := by
        have hsome := readHead_some [] (fun c hc => (stream.reads c hc).2) (by simp) hread
        exact (hparse.le _ _ _ hsome.1).trans_lt hsome.2
      by_cases hover : 2 ^ 64 ≤ len + contentLength head
      · -- The sum has wrapped, in a release build and to above the limit: no request either way.
        have hbuild : build = .release ∧
            maxMessageBytes < len + contentLength head - 2 ^ 64 := by
          by_contra hnot
          refine hsum ⟨len, head, hbytes, hlen, hover, fun hrelease => ?_⟩
          exact not_lt.1 fun hlt => hnot ⟨hrelease, hlt⟩
        obtain ⟨rfl, hwrapped⟩ := hbuild
        have hmod := wrap_eq (hlen.trans_le hlimit) (contentLength_lt head) hover
        rw [if_pos (by omega)]
        exact readRest_overlong (congrArg Except.ok hmod) hwrapped
      · have hadd := Build.add_eq build (not_le.1 hover)
        by_cases hmax : maxMessageBytes < len + contentLength head
        · rw [if_pos hmax]
          exact readRest_overlong hadd hmax
        · rw [if_neg hmax]
          exact readRest_eq hrest (not_lt.1 hmax) hadd
    · rw [hread, if_pos (by omega)]

/-- Where the sum is past 64 bits, what is left to do once the head is
there is to panic. -/
theorem readRest_panics {len : ℕ} {head : RequestHead} {buf : List UInt8}
    {chunks : List (List UInt8)} (hlen : len ≤ buf.length)
    (hover : 2 ^ 64 ≤ len + contentLength head)
    (hwrapped : build = .release → len + contentLength head - 2 ^ 64 ≤ maxMessageBytes)
    (hsmall : len < 2 ^ 64) :
    ∃ panic, readRest maxMessageBytes build ending len head buf chunks = .error panic := by
  have hclaimed := contentLength_lt head
  unfold readRest
  cases build with
  | debug =>
    refine ⟨.overflow, ?_⟩
    have hadd : Build.debug.add len (contentLength head) = .error .overflow := if_neg (by omega)
    rw [hadd]
    rfl
  | release =>
    obtain ⟨totalLen, htotal⟩ : ∃ n, n = len + contentLength head - 2 ^ 64 := ⟨_, rfl⟩
    have hadd : Build.release.add len (contentLength head) = .ok totalLen := by
      rw [Build.add, wrap_eq hsmall hclaimed hover, htotal]
    have hmax : ¬ maxMessageBytes < totalLen := not_lt.2 (htotal ▸ hwrapped rfl)
    have hlt : totalLen < len := by omega
    have hread : readBody ending totalLen buf chunks = .ok (some buf) := by
      unfold readBody
      rw [if_pos (by omega)]
    obtain ⟨panic, hpanic⟩ : ∃ panic, slice buf len totalLen = .error panic := by
      unfold slice
      rw [if_pos hlt]
      exact ⟨_, rfl⟩
    refine ⟨panic, ?_⟩
    rw [hadd]
    simp only [bind, Except.bind, if_neg hmax, hread, hpanic]

/-! ## Reads that end in a panic -/

/-- One byte a read. -/
def bytewise (bytes : List UInt8) : List (List UInt8) := bytes.map fun b => [b]

theorem flatten_bytewise (bytes : List UInt8) : (bytewise bytes).flatten = bytes := by
  unfold bytewise
  rw [← List.flatMap_def]
  exact List.flatMap_singleton' bytes

theorem reads_bytewise {bytes chunk : List UInt8} (h : chunk ∈ bytewise bytes) :
    chunk ≠ [] ∧ chunk.length ≤ 4096 := by
  obtain ⟨b, -, rfl⟩ := List.mem_map.1 h
  exact ⟨List.cons_ne_nil _ _, by simp⟩

/-- **Some reads find the head** where it is not past the last of them: a
byte at a time up to the limit, and then as much as there is room for. -/
theorem exists_stream_head (hparse : Incremental parse) (hpos : 0 < maxMessageBytes)
    {bytes : List UInt8} {len : ℕ} {head : RequestHead} (h : parse bytes = .complete len head)
    (hlen : len < maxMessageBytes + 4096) (ending : Option ε) :
    ∃ stream : Stream ε, stream.bytes = bytes ∧ stream.ending = ending ∧
      ∃ buf chunks, readHead maxMessageBytes parse stream.ending [] stream.chunks =
        .ok (some ((len, head), buf, chunks)) ∧ len ≤ buf.length := by
  by_cases hmax : len ≤ maxMessageBytes
  · refine ⟨⟨bytewise bytes, fun c hc => reads_bytewise hc, ending⟩, flatten_bytewise bytes,
      rfl, ?_⟩
    have hflat : parse ([] ++ (bytewise bytes).flatten) = .complete len head := by
      rw [List.nil_append, flatten_bytewise, h]
    rcases @readHead_complete _ maxMessageBytes _ ending _ _ _ hparse [] hflat with
      ⟨buf, chunks, hread, -, hle⟩ | ⟨-, hlt⟩
    · exact ⟨buf, chunks, hread, hle⟩
    · omega
  · have hbytes := hparse.le _ _ _ h
    obtain ⟨before, after, hsplit, hbefore⟩ : ∃ before after, bytes = before ++ after ∧
        before.length = maxMessageBytes - 1 :=
      ⟨bytes.take (maxMessageBytes - 1), bytes.drop (maxMessageBytes - 1),
        (List.take_append_drop _ _).symm, by rw [List.length_take]; omega⟩
    subst hsplit
    have hafter : after ≠ [] := by
      rintro rfl
      rw [List.append_nil] at hbytes
      omega
    have hcut : parse before = .incomplete := hparse.incomplete_of_append h (by omega)
    have htake : (before ++ after).take (maxMessageBytes - 1 + 4096) =
        before ++ after.take 4096 := by
      rw [List.take_append, List.take_of_length_le (by omega), hbefore, Nat.add_sub_cancel_left]
    have hle : len ≤ (before ++ after.take 4096).length := by
      rw [← htake, List.length_take]
      omega
    have hfound : parse (before ++ after.take 4096) = .complete len head := by
      refine hparse.of_append (c := after.drop 4096) ?_ hle
      rw [List.append_assoc, List.take_append_drop, h]
    refine ⟨⟨bytewise before ++ after.take 4096 :: bytewise (after.drop 4096), fun c hc => ?_,
      ending⟩, ?_, rfl, before ++ after.take 4096, bytewise (after.drop 4096), ?_, hle⟩
    · rcases List.mem_append.1 hc with hc | hc
      · exact reads_bytewise hc
      · rcases List.mem_cons.1 hc with rfl | hc
        · refine ⟨fun hnil => ?_, List.length_take_le _ _⟩
          exact (List.take_eq_nil_iff.1 hnil).elim (by decide) hafter
        · exact reads_bytewise hc
    · unfold Stream.bytes
      rw [List.flatten_append, List.flatten_cons, flatten_bytewise, flatten_bytewise,
        List.take_append_drop]
    · have hflat : [] ++ (bytewise before).flatten = before := by
        rw [List.nil_append, flatten_bytewise]
      rw [readHead_append hparse [] (by rw [hflat, hcut]) (by rw [hflat]; omega), hflat,
        readHead_of_incomplete hcut (by omega)]
      exact readHead_of_complete hfound

/-- **Where the sum is past 64 bits, some reads end in a panic.** -/
theorem exists_stream_panics (hparse : Incremental parse) (hpos : 0 < maxMessageBytes)
    (hlimit : maxMessageBytes + 4096 ≤ 2 ^ 64) {bytes : List UInt8}
    (h : Overflows maxMessageBytes build parse bytes) (ending : Option ε) :
    ∃ stream : Stream ε, stream.bytes = bytes ∧ stream.ending = ending ∧
      ∃ panic, readRequestFrom maxMessageBytes build parse stream = .error panic := by
  obtain ⟨len, head, hhead, hlen, hover, hwrapped⟩ := h
  obtain ⟨stream, hbytes, hending, buf, chunks, hread, hle⟩ :=
    exists_stream_head hparse hpos hhead hlen ending
  refine ⟨stream, hbytes, hending, ?_⟩
  unfold readRequestFrom
  rw [hread]
  exact readRest_panics hle hover hwrapped (hlen.trans_le hlimit)

/-! ## The three servers -/

namespace Server

theorem readRequest_eq (server : Server) (build : Build) (parse : List UInt8 → Parsed RequestHead)
    (stream : Stream ε) : server.readRequest build parse stream =
      readRequestFrom server.maxMessageBytes build parse stream := by
  cases server <;> rfl

theorem maxMessageBytes_eq (server : Server) : server.maxMessageBytes = 65536 := by
  cases server <;> rfl

end Server

/-- **A request is read** whole and for what it is: no read of it ends in a
panic, a request that is read has the body its head claims and is not
longer than a message may be, and what is read does not depend on how the
bytes arrived. -/
structure ReadsWhole (server : Server) (build : Build) (parse : List UInt8 → Parsed RequestHead)
    (bytes : List UInt8) (ending : Option ε) : Prop where
  total : ∀ stream : Stream ε, stream.bytes = bytes → stream.ending = ending →
    ∀ panic, server.readRequest build parse stream ≠ .error panic
  body : ∀ stream : Stream ε, stream.bytes = bytes → stream.ending = ending →
    ∀ request, server.readRequest build parse stream = .ok (.ok (some request)) →
      ∃ len head, parse bytes = .complete len head ∧
        len + contentLength head ≤ server.maxMessageBytes ∧
        request.body.length = contentLength head ∧
        ∃ rest, bytes.drop len = request.body ++ rest
  same : ∀ stream stream' : Stream ε, stream.bytes = bytes → stream.ending = ending →
    stream'.bytes = bytes → stream'.ending = ending →
    server.readRequest build parse stream = server.readRequest build parse stream'

theorem expected_eq_some {bytes : List UInt8} {request : ParsedRequest}
    (h : expected maxMessageBytes parse bytes ending = .ok (some request)) :
    ∃ len head, parse bytes = .complete len head ∧ len + contentLength head ≤ maxMessageBytes ∧
      request.body.length = contentLength head ∧ ∃ rest, bytes.drop len = request.body ++ rest := by
  unfold expected at h
  cases hbytes : parse bytes with
  | malformed e =>
    rw [hbytes] at h
    cases h
  | incomplete =>
    rw [hbytes] at h
    simp only at h
    split at h
    · cases h
    · cases ending <;> cases h
  | complete len head =>
    rw [hbytes] at h
    simp only at h
    split at h
    · cases h
    · rename_i hmax
      split at h
      · cases ending <;> cases h
      · rename_i hshort
        cases h
        refine ⟨len, head, rfl, not_lt.1 hmax, ?_, _, (List.take_append_drop _ _).symm⟩
        simp only [List.length_take, List.length_drop]
        omega

/-- Where the sum is past 64 bits they are not. -/
theorem not_readsWhole (hparse : Incremental parse) {server : Server} {bytes : List UInt8}
    (h : Overflows server.maxMessageBytes build parse bytes) :
    ¬ ReadsWhole server build parse bytes ending := by
  intro hwhole
  have hpos : 0 < server.maxMessageBytes := by
    rw [server.maxMessageBytes_eq]
    decide
  have hlimit : server.maxMessageBytes + 4096 ≤ 2 ^ 64 := by
    rw [server.maxMessageBytes_eq]
    decide
  obtain ⟨stream, hbytes, hending, panic, hpanic⟩ :=
    exists_stream_panics hparse hpos hlimit h ending
  exact hwhole.total stream hbytes hending panic (by rw [server.readRequest_eq, hpanic])

/-- **Requests are read whole, however they arrive**, by each of the three
servers and in either build, if and only if the length the head claims,
added to that of the head, stays within 64 bits. -/
theorem readsWhole_iff (hparse : Incremental parse) (server : Server) (build : Build)
    (bytes : List UInt8) (ending : Option ε) :
    ReadsWhole server build parse bytes ending ↔
      ¬ Overflows server.maxMessageBytes build parse bytes := by
  refine ⟨fun h hover => not_readsWhole hparse hover h, fun hsum => ?_⟩
  have hlimit : server.maxMessageBytes + 4096 ≤ 2 ^ 64 := by
    rw [server.maxMessageBytes_eq]
    decide
  have heq : ∀ stream : Stream ε, stream.bytes = bytes → stream.ending = ending →
      server.readRequest build parse stream =
        .ok (expected server.maxMessageBytes parse bytes ending) := by
    rintro stream rfl rfl
    rw [server.readRequest_eq, readRequestFrom_eq hparse hlimit stream hsum]
  refine ⟨fun stream hb he panic h => ?_, fun stream hb he request h => ?_,
    fun stream stream' hb he hb' he' => by rw [heq stream hb he, heq stream' hb' he']⟩
  · rw [heq stream hb he] at h
    cases h
  · rw [heq stream hb he] at h
    exact expected_eq_some (Except.ok.inj h)

/-- A request for the agent's jails, with a body of two bytes. -/
def Sample.request : List UInt8 :=
  "GET /jails HTTP/1.1\r\nContent-Length: 2\r\n\r\nhi".toUTF8.data.toList

/-- Its body is as long as its head claims. -/
theorem Sample.not_overflows_request (build : Build) :
    ¬ Overflows 65536 build findRequest Sample.request := by
  rintro ⟨len, head, h, hlen, hover, -⟩
  have hhead : findRequest Sample.request =
      .complete 42 ⟨some "GET", some "/jails", [⟨"Content-Length", [50]⟩]⟩ := by decide +kernel
  have hclaimed : contentLength ⟨some "GET", some "/jails", [⟨"Content-Length", [50]⟩]⟩ = 2 := by
    decide +kernel
  cases hhead.symm.trans h
  rw [hclaimed] at hover
  omega

theorem readsWhole_sample :
    ReadsWhole .agentTls .debug findRequest Sample.request (none : Option Unit) :=
  (readsWhole_iff incremental_findRequest .agentTls .debug Sample.request none).2
    (Sample.not_overflows_request .debug)

/-! ## A length of 64 bits -/

/-- A request that claims the longest body there is. -/
def Sample.longest : List UInt8 :=
  "PUT /jails/web-1 HTTP/1.1\r\nContent-Length: 18446744073709551615\r\n\r\n".toUTF8.data.toList

theorem Sample.overflows_longest (build : Build) :
    Overflows 65536 build findRequest Sample.longest := by
  have hhead : findRequest Sample.longest = .complete 67 ⟨some "PUT", some "/jails/web-1",
      [⟨"Content-Length", "18446744073709551615".toUTF8.data.toList⟩]⟩ := by decide +kernel
  have hclaimed : contentLength ⟨some "PUT", some "/jails/web-1",
      [⟨"Content-Length", "18446744073709551615".toUTF8.data.toList⟩]⟩ = 2 ^ 64 - 1 := by
    decide +kernel
  refine ⟨_, _, hhead, by decide, ?_, fun _ => ?_⟩ <;> rw [hclaimed] <;> decide

/-- Some reads of it end in a panic, in either build. -/
theorem longest_panics :
    ¬ ReadsWhole .controlPlane .release findRequest Sample.longest (none : Option Unit) ∧
      ¬ ReadsWhole .agentTls .debug findRequest Sample.longest (none : Option Unit) :=
  ⟨not_readsWhole incremental_findRequest (Sample.overflows_longest .release),
    not_readsWhole incremental_findRequest (Sample.overflows_longest .debug)⟩

end Http

end Keel
