/-
**Headers of responses.**

`curl` calls `CurlWriteHeader` (`s3comms.c`) for every line of the header of a response, the empty
line at its end included.  The function looks for the first letter or digit before it looks at the
length of the line, and counts the pairs of a name and a value from `0`, so that
`s3_SubmitS3Request` reports one less than there are.

Main definitions:

* `AwsS3fs.parseHeader`, `AwsS3fs.curlWriteHeader`, `AwsS3fs.receiveHeaders` — a line, a call, and
  all calls;
* `AwsS3fs.ResponseLine` — a line of a header, well formed;
* `AwsS3fs.HeadersReceived` — the headers are received completely.

Main results:

* `AwsS3fs.parseHeader_bytes` — what is found in a line;
* `AwsS3fs.receiveHeaders_lines` — **what is received of well-formed lines**: their pairs, in order,
  with a count of one less;
* `AwsS3fs.not_headersReceived` — **the headers are never received completely**.
-/

import AwsS3fs.Lib.Bytes
import AwsS3fs.Lib.Runs

set_option relaxedAutoImplicit false
set_option autoImplicit false

namespace AwsS3fs

open CLib

/-! ### One line -/

/-- What `CurlWriteHeader` finds in a line: the name, the value if there is one, and how many bytes
from the beginning of the line on it has looked at. -/
structure ParsedHeader where
  header : Bytes
  data : Option Bytes
  reads : ℕ
  deriving DecidableEq, Repr

/-- A byte that does not end a name. -/
def inName (ch : UInt8) : Bool := ch != 58 && ch != 10 && ch != 13

/-- A byte that does not end a value. -/
def inValue (ch : UInt8) : Bool := ch != 0 && ch != 13 && ch != 10

/-- `CurlWriteHeader`, up to the storing of the pair, in readable memory that begins with a line of
`toCopy` bytes.  The length is not reduced by the number of bytes that are skipped. -/
def parseHeader (toCopy : ℕ) (memory : Bytes) : Option ParsedHeader := do
  let skipped ← scan (!isalnum ·) memory
  let ptr := memory.drop skipped
  let i ← scanLimit inName toCopy ptr
  let ch ← ptr[i]?
  if i = toCopy || ch == 10 || ch == 13 then
    return ⟨ptr.take i, none, skipped + i + 1⟩
  else
    let separators ← scanLimit isSeparator (toCopy - i) (ptr.drop i)
    let start := i + separators
    if start = toCopy then return ⟨ptr.take i, none, skipped + toCopy⟩
    else
      let length ← scanLimit inValue (toCopy - start) (ptr.drop start)
      return ⟨ptr.take i, some ((ptr.drop start).take length),
        skipped + min (start + length + 1) toCopy⟩

/-! ### The array -/

/-- `struct CurlWriteBuffer` with pairs of a name and a value, and the number of pairs for which
memory is allocated. -/
structure HeaderBuffer where
  data : Option (List (Bytes × Option Bytes))
  size : ℕ
  capacity : ℕ
  deriving DecidableEq, Repr

/-- `HEADER_ALLOC_AMOUNT`. -/
def headerAllocAmount : ℕ := 10

/-- A pair is stored, unless that would be behind the allocated memory. -/
def HeaderBuffer.addPair (writeBuffer : HeaderBuffer) (pair : Bytes × Option Bytes) :
    Option HeaderBuffer :=
  match writeBuffer.data with
  | none => some ⟨some [pair], 0, headerAllocAmount⟩
  | some pairs =>
      let size := writeBuffer.size + 1
      let capacity :=
        if size % headerAllocAmount = 0 then (size + 1) * headerAllocAmount
        else writeBuffer.capacity
      if size < capacity then some ⟨some (pairs.take size ++ [pair]), size, capacity⟩ else none

/-- The string in some memory. -/
def storedName (memory : Bytes) : Bytes := memory.takeWhile (· != 0)

/-- A call of `CurlWriteHeader`: the line, and the readable memory behind it. -/
structure HeaderCall where
  line : Bytes
  behind : Bytes
  deriving DecidableEq, Repr

def HeaderCall.parsed (call : HeaderCall) : Option ParsedHeader :=
  parseHeader call.line.length (call.line ++ call.behind)

/-- `CurlWriteHeader`, unless it leaves the readable memory. -/
def curlWriteHeader (writeBuffer : HeaderBuffer) (call : HeaderCall) : Option HeaderBuffer := do
  let parsed ← call.parsed
  if storedName parsed.header ≠ [] || parsed.data.isSome then
    writeBuffer.addPair (storedName parsed.header, parsed.data)
  else return writeBuffer

/-- The array after the calls. -/
def receiveHeaders (calls : List HeaderCall) : Option HeaderBuffer :=
  calls.foldlM curlWriteHeader ⟨none, 0, 0⟩

/-- The pairs in the array. -/
def HeaderBuffer.pairs (writeBuffer : HeaderBuffer) : List (Bytes × Option Bytes) :=
  writeBuffer.data.getD []

/-- The length that `s3_SubmitS3Request` reports. -/
def HeaderBuffer.dataLength (writeBuffer : HeaderBuffer) : ℤ := wrapInt writeBuffer.size

/-! ### What should be received -/

/-- The empty line at the end of a header. -/
def emptyLine : Bytes := [13, 10]

/-- The pair of a line. -/
def headerPair (line : Bytes) : Bytes × Option Bytes :=
  let text := line.takeWhile inValue
  let value := (text.dropWhile inName).dropWhile isSeparator
  (text.takeWhile inName, if value = [] then none else some value)

/-- **The headers are received completely.** -/
structure HeadersReceived (calls : List HeaderCall) : Prop where
  inside : ∀ call ∈ calls, ∃ parsed, call.parsed = some parsed ∧ parsed.reads ≤ call.line.length
  pairs : ∃ writeBuffer, receiveHeaders calls = some writeBuffer ∧
    writeBuffer.pairs = ((calls.map (·.line)).filter (· ≠ emptyLine)).map headerPair
  length : ∀ writeBuffer, receiveHeaders calls = some writeBuffer →
    writeBuffer.dataLength = writeBuffer.pairs.length

/-! ### Every call stores a pair -/

theorem inName_of_isalnum {ch : UInt8} (h : isalnum ch = true) : inName ch = true := by
  have hne : ∀ d, isalnum d = false → ch ≠ d := by
    rintro d hd rfl
    rw [hd] at h
    cases h
  simp [inName, hne 58 (by decide), hne 10 (by decide), hne 13 (by decide)]

/-- The name begins with the first letter or digit, wherever that is. -/
theorem parsed_spec {call : HeaderCall} {parsed : ParsedHeader} (hline : call.line ≠ [])
    (h : call.parsed = some parsed) :
    ∃ skipped, scan (!isalnum ·) (call.line ++ call.behind) = some skipped ∧
      skipped < parsed.reads ∧ storedName parsed.header ≠ [] := by
  have hpos : 0 < call.line.length := List.length_pos_iff.2 hline
  simp only [HeaderCall.parsed, parseHeader, Option.bind_eq_bind, Option.bind_eq_some_iff] at h
  obtain ⟨skipped, hskipped, i, hi, ch, -, h⟩ := h
  obtain ⟨a, c, rest, hmemory, hlength, -, hc⟩ := scan_eq_some_iff.1 hskipped
  have halnum : isalnum c = true := by simpa using hc
  have hptr : (call.line ++ call.behind).drop skipped = c :: rest := by
    rw [hmemory, ← hlength, List.drop_left]
  -- the name has at least one character, which is not `'\0'`
  obtain ⟨k, rfl⟩ : ∃ k, i = k + 1 := by
    obtain ⟨n, hn⟩ : ∃ n, call.line.length = n + 1 := ⟨call.line.length - 1, by omega⟩
    rw [hptr, hn, scanLimit, if_pos (inName_of_isalnum halnum), Option.map_eq_some_iff] at hi
    obtain ⟨k, -, hk⟩ := hi
    exact ⟨k, hk.symm⟩
  have hheader : storedName ((c :: rest).take (k + 1)) ≠ [] := by
    rw [storedName, List.take_succ_cons,
      List.takeWhile_cons_of_pos (by simpa using ne_zero_of_isalnum halnum)]
    exact List.cons_ne_nil _ _
  rw [hptr] at h
  refine ⟨skipped, hskipped, ?_⟩
  split at h
  · obtain rfl := Option.some.inj h
    exact ⟨by simp only; omega, hheader⟩
  · rw [Option.bind_eq_some_iff] at h
    obtain ⟨separators, -, h⟩ := h
    split at h
    · obtain rfl := Option.some.inj h
      exact ⟨by simp only; omega, hheader⟩
    · rw [Option.bind_eq_some_iff] at h
      obtain ⟨length, -, h⟩ := h
      obtain rfl := Option.some.inj h
      exact ⟨by simp only; omega, hheader⟩

/-- The count is one less than the number of pairs, and there is room for them. -/
structure HeaderBuffer.Counted (writeBuffer : HeaderBuffer) : Prop where
  length : ∀ pairs, writeBuffer.data = some pairs → pairs.length = writeBuffer.size + 1
  room : writeBuffer.data.isSome = true →
    writeBuffer.size < writeBuffer.capacity ∧ writeBuffer.capacity % 10 = 0

theorem counted_start : (⟨none, 0, 0⟩ : HeaderBuffer).Counted where
  length _ h := by cases h
  room h := by cases h

/-- There is room for another pair. -/
theorem HeaderBuffer.Counted.addPair {writeBuffer : HeaderBuffer} (h : writeBuffer.Counted)
    (pair : Bytes × Option Bytes) :
    ∃ writeBuffer', writeBuffer.addPair pair = some writeBuffer' ∧ writeBuffer'.Counted ∧
      writeBuffer'.data = some (writeBuffer.pairs ++ [pair]) := by
  obtain ⟨data, size, capacity⟩ := writeBuffer
  cases data with
  | none =>
      refine ⟨_, rfl, ⟨?_, fun _ => ?_⟩, rfl⟩
      · rintro pairs hpairs
        obtain rfl := Option.some.inj hpairs
        rfl
      · exact ⟨(by decide : 0 < headerAllocAmount), (by decide : headerAllocAmount % 10 = 0)⟩
  | some pairs =>
      have hlength : pairs.length = size + 1 := h.length pairs rfl
      obtain ⟨hroom, hten⟩ : size < capacity ∧ capacity % 10 = 0 := h.room rfl
      have htake : pairs.take (size + 1) = pairs := List.take_of_length_le (by omega)
      have hcapacity : ∀ c, c = (if (size + 1) % headerAllocAmount = 0 then
          (size + 1 + 1) * headerAllocAmount else capacity) → size + 1 < c ∧ c % 10 = 0 := by
        rintro c rfl
        rw [headerAllocAmount]
        split <;> omega
      obtain ⟨hlt, hmod⟩ := hcapacity _ rfl
      refine ⟨⟨some (pairs.take (size + 1) ++ [pair]), size + 1, _⟩, ?_,
        ⟨?_, fun _ => ⟨hlt, hmod⟩⟩, ?_⟩
      · exact if_pos hlt
      · intro pairs' hpairs'
        obtain rfl := Option.some.inj hpairs'
        rw [List.length_append, htake, hlength]
        rfl
      · simp only [HeaderBuffer.pairs, htake, Option.getD_some]

/-- A call keeps the count. -/
theorem HeaderBuffer.Counted.call {writeBuffer writeBuffer' : HeaderBuffer} {call : HeaderCall}
    (hcounted : writeBuffer.Counted) (h : curlWriteHeader writeBuffer call = some writeBuffer') :
    writeBuffer'.Counted := by
  rw [curlWriteHeader, Option.bind_eq_bind, Option.bind_eq_some_iff] at h
  obtain ⟨parsed, -, h⟩ := h
  split at h
  · obtain ⟨writeBuffer₁, hadd, hcounted', -⟩ :=
      hcounted.addPair (storedName parsed.header, parsed.data)
    obtain rfl : writeBuffer₁ = writeBuffer' := Option.some.inj (hadd.symm.trans h)
    exact hcounted'
  · obtain rfl := Option.some.inj h
    exact hcounted

/-- **A call stores a pair**, whatever is in the line. -/
theorem curlWriteHeader_eq {writeBuffer : HeaderBuffer} (hcounted : writeBuffer.Counted)
    {call : HeaderCall} (hline : call.line ≠ []) {parsed : ParsedHeader}
    (hparsed : call.parsed = some parsed) :
    ∃ writeBuffer', curlWriteHeader writeBuffer call = some writeBuffer' ∧
      writeBuffer'.data =
        some (writeBuffer.pairs ++ [(storedName parsed.header, parsed.data)]) := by
  obtain ⟨-, -, -, hheader⟩ := parsed_spec hline hparsed
  obtain ⟨writeBuffer', hadd, -, hdata⟩ :=
    hcounted.addPair (storedName parsed.header, parsed.data)
  refine ⟨writeBuffer', ?_, hdata⟩
  rw [curlWriteHeader, hparsed, Option.bind_eq_bind, Option.bind_some,
    if_pos (by simp [hheader]), hadd]

/-- The calls that come first, and the last one. -/
theorem receiveHeaders_append {calls : List HeaderCall} {call : HeaderCall}
    {writeBuffer : HeaderBuffer} :
    receiveHeaders (calls ++ [call]) = some writeBuffer ↔
      ∃ writeBuffer', receiveHeaders calls = some writeBuffer' ∧
        curlWriteHeader writeBuffer' call = some writeBuffer := by
  simp [receiveHeaders, List.foldlM_append, Option.bind_eq_some_iff]

/-- **The count after all calls.** -/
theorem counted_receiveHeaders {calls : List HeaderCall} {writeBuffer : HeaderBuffer}
    (h : receiveHeaders calls = some writeBuffer) : writeBuffer.Counted := by
  induction calls using List.reverseRecOn generalizing writeBuffer with
  | nil =>
      obtain rfl := Option.some.inj h
      exact counted_start
  | append_singleton calls call ih =>
      obtain ⟨writeBuffer', hcalls, hcall⟩ := receiveHeaders_append.1 h
      exact (ih hcalls).call hcall

/-! ### Well-formed lines -/

/-- A line of a header: the line of the status, or a field with a name and a value. -/
inductive ResponseLine
  | status (text : Bytes)
  | field (name value : Bytes)
  deriving DecidableEq, Repr

namespace ResponseLine

/-- The bytes of a line. -/
def bytes : ResponseLine → Bytes
  | status text => text ++ [13, 10]
  | field name value => name ++ 58 :: 32 :: (value ++ [13, 10])

/-- The pair that a line stands for. -/
def pair : ResponseLine → Bytes × Option Bytes
  | status text => (text, none)
  | field name value => (name, some value)

/-- A name that begins with a letter or a digit. -/
def NameWellFormed (name : Bytes) : Prop :=
  (∀ ch ∈ name, inName ch = true ∧ ch ≠ 0) ∧ ∃ c rest, name = c :: rest ∧ isalnum c = true

/-- A value that does not begin with a separator. -/
def ValueWellFormed (value : Bytes) : Prop :=
  (∀ ch ∈ value, inValue ch = true) ∧ ∃ c rest, value = c :: rest ∧ isSeparator c = false

/-- Names and values are not empty and do not contain what ends them. -/
def WellFormed : ResponseLine → Prop
  | status text => NameWellFormed text
  | field name value => NameWellFormed name ∧ ValueWellFormed value

end ResponseLine

/-- Nothing is skipped in front of a name. -/
theorem scan_name {name : Bytes} (h : ResponseLine.NameWellFormed name) (rest : Bytes) :
    scan (!isalnum ·) (name ++ rest) = some 0 := by
  obtain ⟨c, t, rfl, hc⟩ := h.2
  exact scan_append (a := []) _ (by simp) (by simp [hc])

/-- **What is found in a well-formed line**: its pair, without a look at what is behind it. -/
theorem parseHeader_bytes {line : ResponseLine} (h : line.WellFormed) (behind : Bytes) :
    ∃ reads ≤ line.bytes.length, parseHeader line.bytes.length (line.bytes ++ behind) =
      some ⟨line.pair.1, line.pair.2, reads⟩ := by
  have hat : ∀ (a r : Bytes) (c : UInt8), (a ++ c :: r)[a.length]? = some c := by simp
  cases line with
  | status text =>
      have hmemory : (ResponseLine.status text).bytes ++ behind = text ++ 13 :: (10 :: behind) := by
        simp [ResponseLine.bytes]
      have hlength : (ResponseLine.status text).bytes.length = text.length + 2 := by
        simp [ResponseLine.bytes]
      have hname : scanLimit inName (text.length + 2) (text ++ 13 :: (10 :: behind)) =
          some text.length :=
        scanLimit_append _ (fun ch hch => (h.1 ch hch).1) (by decide) (by omega)
      refine ⟨text.length + 1, by omega, ?_⟩
      rw [hmemory, hlength, parseHeader, scan_name h]
      simp only [Option.bind_eq_bind, Option.bind_some, List.drop_zero, hname, hat,
        List.take_left]
      simp [ResponseLine.pair]
  | field name value =>
      obtain ⟨hname, hvalue, c, t, rfl, hc⟩ := h
      have hmemory : (ResponseLine.field name (c :: t)).bytes ++ behind =
          name ++ 58 :: (32 :: (c :: t ++ 13 :: (10 :: behind))) := by
        simp [ResponseLine.bytes]
      have hlength : (ResponseLine.field name (c :: t)).bytes.length =
          name.length + 2 + (c :: t).length + 2 := by
        simp [ResponseLine.bytes]
        omega
      generalize hn : (ResponseLine.field name (c :: t)).bytes.length = toCopy at hlength ⊢
      have hscan : scanLimit inName toCopy
          (name ++ 58 :: (32 :: (c :: t ++ 13 :: (10 :: behind)))) = some name.length :=
        scanLimit_append _ (fun ch hch => (hname.1 ch hch).1) (by decide) (by omega)
      have hblanks : scanLimit isSeparator (toCopy - name.length)
          (58 :: (32 :: (c :: t ++ 13 :: (10 :: behind)))) = some 2 :=
        scanLimit_append (a := [58, 32]) _ (by decide +kernel) hc (by simp; omega)
      have hdata : scanLimit inValue (toCopy - (name.length + 2))
          (c :: t ++ 13 :: (10 :: behind)) = some (c :: t).length :=
        scanLimit_append _ hvalue (by decide) (by omega)
      have hdrop : ∀ r : Bytes, (name ++ 58 :: (32 :: r)).drop (name.length + 2) = r := fun r => by
        rw [← List.drop_drop, List.drop_left]
        rfl
      refine ⟨min (name.length + 2 + (c :: t).length + 1) toCopy, by omega, ?_⟩
      rw [hmemory, parseHeader, scan_name hname]
      simp only [Option.bind_eq_bind, Option.bind_some, List.drop_zero, hscan, hat,
        List.take_left, List.drop_left]
      rw [if_neg (by simp; omega), hblanks, Option.bind_some, if_neg (by omega), hdrop, hdata]
      simp [ResponseLine.pair]

/-- The bytes of a name are the string that is stored. -/
theorem storedName_eq {name : Bytes} (h : ResponseLine.NameWellFormed name) :
    storedName name = name :=
  List.takeWhile_eq_self_iff.2 fun ch hch => by simpa using (h.1 ch hch).2

/-- **What is received of well-formed lines**: their pairs, in order. -/
theorem receiveHeaders_lines {lines : List ResponseLine} (hlines : ∀ line ∈ lines, line.WellFormed)
    (behind : ResponseLine → Bytes) :
    ∃ writeBuffer, receiveHeaders (lines.map fun line => ⟨line.bytes, behind line⟩) =
      some writeBuffer ∧ writeBuffer.pairs = lines.map ResponseLine.pair := by
  induction lines using List.reverseRecOn with
  | nil => exact ⟨_, rfl, rfl⟩
  | append_singleton lines line ih =>
      obtain ⟨writeBuffer, hreceive, hpairs⟩ := ih fun l hl => hlines l (List.mem_append_left _ hl)
      have hline := hlines line (List.mem_append_right _ (List.mem_singleton_self line))
      have hne : line.bytes ≠ [] := by
        cases line <;> simp [ResponseLine.bytes]
      have hname : storedName line.pair.1 = line.pair.1 := by
        cases line with
        | status text => exact storedName_eq hline
        | field name value => exact storedName_eq hline.1
      obtain ⟨reads, -, hparsed⟩ := parseHeader_bytes hline (behind line)
      have hcall : (⟨line.bytes, behind line⟩ : HeaderCall).parsed =
          some ⟨line.pair.1, line.pair.2, reads⟩ := hparsed
      obtain ⟨writeBuffer', hwrite, hdata⟩ :=
        curlWriteHeader_eq (counted_receiveHeaders hreceive) hne hcall
      refine ⟨writeBuffer', ?_, ?_⟩
      · rw [List.map_append, List.map_singleton]
        exact receiveHeaders_append.2 ⟨writeBuffer, hreceive, hwrite⟩
      · rw [HeaderBuffer.pairs, hdata, Option.getD_some, hpairs, List.map_append,
          List.map_singleton, hname]

/-! ### The empty line -/

/-- In an empty line there is no letter and no digit, so the search goes on behind it. -/
theorem emptyLine_reads {behind : Bytes} {parsed : ParsedHeader}
    (h : (⟨emptyLine, behind⟩ : HeaderCall).parsed = some parsed) :
    emptyLine.length < parsed.reads := by
  obtain ⟨skipped, hskipped, hreads, -⟩ := parsed_spec (List.cons_ne_nil _ _) h
  have hscan : scan (!isalnum ·) (emptyLine ++ behind) =
      ((scan (!isalnum ·) behind).map (· + 1)).map (· + 1) := by
    rw [emptyLine, List.cons_append, List.cons_append, List.nil_append, scan, if_pos (by decide),
      scan, if_pos (by decide)]
  rw [hscan, Option.map_eq_some_iff] at hskipped
  obtain ⟨n, hn, rfl⟩ := hskipped
  obtain ⟨m, -, rfl⟩ := Option.map_eq_some_iff.1 hn
  simp only [emptyLine, List.length_cons, List.length_nil]
  omega

/-- **The headers are never received completely**: at the empty line, bytes behind it are looked at,
and after it the reported length is not the number of pairs. -/
theorem not_headersReceived (calls : List HeaderCall) (behind : Bytes) :
    ¬ HeadersReceived (calls ++ [⟨emptyLine, behind⟩]) ∧
      (∀ parsed, (⟨emptyLine, behind⟩ : HeaderCall).parsed = some parsed →
        emptyLine.length < parsed.reads) ∧
      ∀ writeBuffer, receiveHeaders (calls ++ [⟨emptyLine, behind⟩]) = some writeBuffer →
        writeBuffer.dataLength ≠ writeBuffer.pairs.length := by
  refine ⟨fun h => ?_, fun _ => emptyLine_reads, ?_⟩
  · obtain ⟨parsed, hparsed, hreads⟩ := h.inside ⟨emptyLine, behind⟩ (by simp)
    exact absurd (emptyLine_reads hparsed) (by simpa using hreads)
  · intro writeBuffer h
    obtain ⟨writeBuffer', hcalls, hcall⟩ := receiveHeaders_append.1 h
    obtain ⟨parsed, hparsed, -⟩ := Option.bind_eq_some_iff.1 hcall
    obtain ⟨writeBuffer₁, hcall', hdata⟩ :=
      curlWriteHeader_eq (counted_receiveHeaders hcalls) (List.cons_ne_nil _ _) hparsed
    obtain rfl : writeBuffer₁ = writeBuffer := Option.some.inj (hcall'.symm.trans hcall)
    have hlength := (counted_receiveHeaders h).length _ hdata
    rw [HeaderBuffer.dataLength, HeaderBuffer.pairs, hdata, Option.getD_some, hlength, wrapInt,
      Int.bmod_def]
    omega

/-- A line of the status, a field and the empty line, with a body behind them. -/
def exampleCalls : List HeaderCall :=
  [⟨ascii "HTTP/1.1 200 OK" ++ [13, 10], []⟩, ⟨ascii "Content-Length: 5" ++ [13, 10], []⟩,
    ⟨emptyLine, ascii "hello"⟩]

/-- **The first letters of the body become a header**, and the length is one too small. -/
theorem not_headersReceived_exampleCalls :
    receiveHeaders exampleCalls =
        some ⟨some [(ascii "HTTP/1.1 200 OK", none), (ascii "Content-Length", some (ascii "5")),
          (ascii "he", none)], 2, 10⟩ ∧
      ¬ HeadersReceived exampleCalls := by
  refine ⟨by decide +kernel, fun h => ?_⟩
  obtain ⟨parsed, hparsed, hreads⟩ := h.inside ⟨emptyLine, ascii "hello"⟩ (by decide +kernel)
  exact absurd (emptyLine_reads hparsed) (Nat.not_lt.2 hreads)

end AwsS3fs
