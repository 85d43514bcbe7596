import Mathlib.Tactic
import Fernq.Server.Conn

/-!
Buffered reading (`tokio::io::BufReader`, `read_exact`, `timeout`) over a socket whose
behaviour is a script of read results.

* `Chunk`, `ReadResult`: what one read of the socket returns.
* `BufReader`: the buffer and the rest of the script; `intoInner` gives the socket back and
  drops the buffer.
* `BufReader.readExact`: bytes are taken from the buffer, and the socket is read when it is
  empty; on an end of file or an error the call stops where it is.
* `readExact_twice`: no byte is lost or duplicated inside a reader.
* `intoInner_eq_rest_iff`: giving up a reader loses no byte exactly when its last chunk ended
  where the last read did.
-/

namespace Fernq

/-- The capacity of a `BufReader`. -/
def bufCapacity : ℕ := 8192

/-- The bytes of one read: at least one, and no more than the buffer holds. -/
structure Chunk where
  bytes : List UInt8
  length_pos : 0 < bytes.length
  length_le : bytes.length ≤ bufCapacity
  deriving DecidableEq

/-- What a read of the socket returns, or that the timer of the call fires first. -/
inductive ReadResult
  | data (chunk : Chunk)
  | eof
  | error (e : IoError)
  | elapsed
  deriving DecidableEq

/-- A reader over the read results that are still to come. -/
structure BufReader where
  buf : List UInt8
  inner : List ReadResult
  deriving DecidableEq

/-- How `timeout(.., reader.read_exact(..))` ends: with all bytes, with the inner error and
the bytes received before it, or by the timer. -/
inductive ReadExact
  | done (bytes : List UInt8)
  | failed (received : List UInt8) (e : IoError)
  | elapsed
  deriving DecidableEq

namespace BufReader

/-- `BufReader::new`. -/
def new (inner : List ReadResult) : BufReader := ⟨[], inner⟩

/-- `into_inner`: what is buffered is dropped. -/
def intoInner (r : BufReader) : List ReadResult := r.inner

def unexpectedEof : IoError := ⟨.unexpectedEof, "early eof"⟩

/-- `read_exact` of `n` more bytes when `got` has been received: `buf` is what the last read
left over. -/
def readLoop (got : List UInt8) (n : ℕ) (buf : List UInt8) :
    List ReadResult → ReadExact × BufReader
  | [] =>
      if n ≤ buf.length then (.done (got ++ buf.take n), ⟨buf.drop n, []⟩)
      else (.elapsed, ⟨[], []⟩)
  | r :: rest =>
      if n ≤ buf.length then (.done (got ++ buf.take n), ⟨buf.drop n, r :: rest⟩)
      else
        match r with
        | .data chunk => readLoop (got ++ buf) (n - buf.length) chunk.bytes rest
        -- an end of file stays at the end of the script
        | .eof => (.failed (got ++ buf) unexpectedEof, ⟨[], .eof :: rest⟩)
        | .error e => (.failed (got ++ buf) e, ⟨[], rest⟩)
        | .elapsed => (.elapsed, ⟨[], rest⟩)

/-- `timeout(.., read_exact(&mut buf[..n]))`. -/
def readExact (r : BufReader) (n : ℕ) : ReadExact × BufReader := readLoop [] n r.buf r.inner

end BufReader

/-- The bytes of a script up to its first end. -/
def dataBytes : List ReadResult → List UInt8
  | .data chunk :: rest => chunk.bytes ++ dataBytes rest
  | _ => []

/-- A script of data alone. -/
def dataScript (chunks : List Chunk) : List ReadResult := chunks.map .data

/-- The bytes of chunks, in order. -/
def chunkBytes (chunks : List Chunk) : List UInt8 := (chunks.map Chunk.bytes).flatten

@[simp] lemma chunkBytes_nil : chunkBytes [] = [] := rfl

@[simp] lemma chunkBytes_cons (c : Chunk) (cs : List Chunk) :
    chunkBytes (c :: cs) = c.bytes ++ chunkBytes cs := rfl

@[simp] lemma chunkBytes_append (cs ds : List Chunk) :
    chunkBytes (cs ++ ds) = chunkBytes cs ++ chunkBytes ds := by
  rw [chunkBytes, List.map_append, List.flatten_append, chunkBytes, chunkBytes]

@[simp] lemma dataScript_append (cs ds : List Chunk) :
    dataScript (cs ++ ds) = dataScript cs ++ dataScript ds := List.map_append

lemma dataBytes_dataScript_append (cs : List Chunk) (rs : List ReadResult) :
    dataBytes (dataScript cs ++ rs) = chunkBytes cs ++ dataBytes rs := by
  induction cs with
  | nil => rfl
  | cons c cs ih =>
      calc dataBytes (dataScript (c :: cs) ++ rs)
          = c.bytes ++ dataBytes (dataScript cs ++ rs) := rfl
        _ = chunkBytes (c :: cs) ++ dataBytes rs := by
            rw [ih, chunkBytes_cons, List.append_assoc]

lemma dataBytes_dataScript (cs : List Chunk) : dataBytes (dataScript cs) = chunkBytes cs := by
  calc dataBytes (dataScript cs) = dataBytes (dataScript cs ++ []) := by rw [List.append_nil]
    _ = chunkBytes cs ++ dataBytes [] := dataBytes_dataScript_append cs []
    _ = chunkBytes cs := List.append_nil _

/-- Two ways to cut data off the front of a script: one cuts off no more than the other. -/
lemma prefix_or_prefix_of_dataScript {cs ds : List Chunk} {rs ss : List ReadResult}
    (h : dataScript cs ++ rs = dataScript ds ++ ss) : cs <+: ds ∨ ds <+: cs := by
  have hinj : Function.Injective (List.map ReadResult.data) :=
    List.map_injective_iff.mpr fun a b hab => ReadResult.data.inj hab
  have hcs : dataScript cs <+: dataScript ds ++ ss := ⟨rs, h⟩
  have hds : dataScript ds <+: dataScript ds ++ ss := List.prefix_append _ _
  rcases List.prefix_or_prefix_of_prefix hcs hds with hp | hp
  · obtain ⟨l, hl, heq⟩ := List.prefix_map_iff.mp hp
    exact Or.inl (hinj heq ▸ hl)
  · obtain ⟨l, hl, heq⟩ := List.prefix_map_iff.mp hp
    exact Or.inr (hinj heq ▸ hl)

namespace BufReader

lemma readLoop_cons (got : List UInt8) (n : ℕ) (buf : List UInt8) (r : ReadResult)
    (rest : List ReadResult) :
    readLoop got n buf (r :: rest)
      = if n ≤ buf.length then (.done (got ++ buf.take n), ⟨buf.drop n, r :: rest⟩)
        else match r with
          | .data chunk => readLoop (got ++ buf) (n - buf.length) chunk.bytes rest
          | .eof => (.failed (got ++ buf) unexpectedEof, ⟨[], .eof :: rest⟩)
          | .error e => (.failed (got ++ buf) e, ⟨[], rest⟩)
          | .elapsed => (.elapsed, ⟨[], rest⟩) := by
  cases r <;> rfl

/-- What a read that ends well has done: the chunks it took off the script, after what was
buffered, are the bytes it returns and what is buffered now, and that is less than the last of
these chunks. -/
lemma readLoop_done {got buf bytes : List UInt8} {n : ℕ} {rs : List ReadResult} {r : BufReader}
    (h : readLoop got n buf rs = (.done bytes, r)) :
    ∃ cs taken, rs = dataScript cs ++ r.inner ∧ bytes = got ++ taken ∧ taken.length = n ∧
      buf ++ chunkBytes cs = taken ++ r.buf ∧
      (cs = [] ∨ ∃ init c, cs = init ++ [c] ∧ r.buf.length < c.bytes.length) := by
  induction rs generalizing got n buf with
  | nil =>
      rw [readLoop] at h
      split_ifs at h with hn
      · cases h
        exact ⟨[], buf.take n, rfl, rfl, List.length_take_of_le hn, by simp, Or.inl rfl⟩
      · cases h
  | cons rd rest ih =>
      rw [readLoop_cons] at h
      split_ifs at h with hn
      · cases h
        exact ⟨[], buf.take n, rfl, rfl, List.length_take_of_le hn, by simp, Or.inl rfl⟩
      · cases rd with
        | data chunk =>
            obtain ⟨cs, taken, hrest, hbytes, hlen, hbuf, hlast⟩ := ih h
            refine ⟨chunk :: cs, buf ++ taken, ?_, ?_, ?_, ?_, Or.inr ?_⟩
            · rw [hrest]
              rfl
            · rw [hbytes, List.append_assoc]
            · rw [List.length_append, hlen]
              omega
            · rw [chunkBytes_cons, hbuf, List.append_assoc]
            · rcases hlast with rfl | ⟨init, c, rfl, hc⟩
              · refine ⟨[], chunk, rfl, ?_⟩
                have := congrArg List.length hbuf
                simp only [chunkBytes_nil, List.append_nil, List.length_append] at this
                omega
              · exact ⟨chunk :: init, c, rfl, hc⟩
        | eof => cases h
        | error e => cases h
        | elapsed => cases h

/-- A read that ends well returns as many bytes as it was asked for. -/
lemma readExact_length {r r' : BufReader} {n : ℕ} {bytes : List UInt8}
    (h : r.readExact n = (.done bytes, r')) : bytes.length = n := by
  obtain ⟨cs, taken, -, rfl, hlen, -⟩ := readLoop_done h
  exact hlen

/-- A read that fails has received less than it was asked for. -/
lemma readLoop_failed {got buf received : List UInt8} {n : ℕ} {rs : List ReadResult}
    {r : BufReader} {e : IoError} (h : readLoop got n buf rs = (.failed received e, r)) :
    received.length < got.length + n := by
  induction rs generalizing got n buf with
  | nil =>
      rw [readLoop] at h
      split_ifs at h <;> cases h
  | cons rd rest ih =>
      rw [readLoop_cons] at h
      split_ifs at h with hn
      · cases h
      · cases rd with
        | data chunk =>
            have := ih h
            rw [List.length_append] at this
            omega
        | eof =>
            cases h
            rw [List.length_append]
            omega
        | error e' =>
            cases h
            rw [List.length_append]
            omega
        | elapsed => cases h

end BufReader

namespace BufReader

/-- A read of no more bytes than are coming ends well. -/
lemma readLoop_of_le {got buf : List UInt8} {n : ℕ} {rs : List ReadResult}
    (h : n ≤ (buf ++ dataBytes rs).length) :
    ∃ r, readLoop got n buf rs = (.done (got ++ (buf ++ dataBytes rs).take n), r) ∧
      r.buf ++ dataBytes r.inner = (buf ++ dataBytes rs).drop n := by
  induction rs generalizing got n buf with
  | nil =>
      simp only [dataBytes, List.append_nil] at h ⊢
      refine ⟨⟨buf.drop n, []⟩, ?_, ?_⟩
      · rw [readLoop, if_pos h]
      · simp [dataBytes]
  | cons rd rest ih =>
      rw [readLoop_cons]
      by_cases hn : n ≤ buf.length
      · refine ⟨⟨buf.drop n, rd :: rest⟩, ?_, ?_⟩
        · rw [if_pos hn, List.take_append_of_le_length hn]
        · rw [List.drop_append_of_le_length hn]
      · rw [if_neg hn]
        cases rd with
        | data chunk =>
            have hle : n - buf.length ≤ (chunk.bytes ++ dataBytes rest).length := by
              rw [dataBytes, List.length_append] at h
              omega
            obtain ⟨r, hr, hrest⟩ := @ih (got ++ buf) _ _ hle
            refine ⟨r, ?_, ?_⟩
            · rw [dataBytes, List.take_append, List.take_of_length_le (by omega),
                ← List.append_assoc]
              exact hr
            · rw [dataBytes, List.drop_append, List.drop_of_length_le (by omega), List.nil_append]
              exact hrest
        | _ => exact absurd (by simpa [dataBytes] using h) hn

/-- The bytes that a reader has buffered or that are coming. -/
def pendingBytes (r : BufReader) : List UInt8 := r.buf ++ dataBytes r.inner

/-- A read that ends well has taken its bytes off the front. -/
lemma pendingBytes_of_readExact {r r' : BufReader} {n : ℕ} {bytes : List UInt8}
    (h : r.readExact n = (.done bytes, r')) : r.pendingBytes = bytes ++ r'.pendingBytes := by
  obtain ⟨cs, taken, hrest, hbytes, -, hbuf, -⟩ := readLoop_done h
  rw [List.nil_append] at hbytes
  subst hbytes
  calc r.pendingBytes = r.buf ++ chunkBytes cs ++ dataBytes r'.inner := by
        rw [pendingBytes, hrest, dataBytes_dataScript_append, List.append_assoc]
    _ = bytes ++ r'.pendingBytes := by rw [hbuf, List.append_assoc, pendingBytes]

/-- What is left of a script of data is one. -/
lemma inner_of_readExact {r r' : BufReader} {n : ℕ} {bytes : List UInt8} {chunks : List Chunk}
    (h : r.readExact n = (.done bytes, r')) (hdata : r.inner = dataScript chunks) :
    ∃ cs, r'.inner = dataScript cs := by
  obtain ⟨cs, -, hrest, -⟩ := readLoop_done h
  refine ⟨chunks.drop cs.length, ?_⟩
  have hlen : (dataScript cs).length = cs.length := List.length_map ..
  calc r'.inner = (dataScript cs ++ r'.inner).drop cs.length := (List.drop_left' hlen).symm
    _ = (dataScript chunks).drop cs.length := by rw [← hrest, hdata]
    _ = dataScript (chunks.drop cs.length) := (List.map_drop ..).symm

/-- A script of data with no bytes is empty. -/
lemma eq_nil_of_pendingBytes {r : BufReader} {chunks : List Chunk}
    (hdata : r.inner = dataScript chunks) (h : r.pendingBytes = []) : r = ⟨[], []⟩ := by
  obtain ⟨buf, inner⟩ := r
  obtain ⟨rfl, hinner⟩ := List.append_eq_nil_iff.mp h
  subst hdata
  cases chunks with
  | nil => rfl
  | cons c cs =>
      obtain ⟨hbytes, -⟩ := List.append_eq_nil_iff.mp hinner
      have := c.length_pos
      rw [hbytes] at this
      cases this

/-- A read of no more bytes than are coming takes them off the front. -/
lemma readExact_of_le {r : BufReader} {n : ℕ} (h : n ≤ r.pendingBytes.length) :
    ∃ r', r.readExact n = (.done (r.pendingBytes.take n), r') ∧
      r'.pendingBytes = r.pendingBytes.drop n :=
  readLoop_of_le h

/-- A read of the bytes that are coming first. -/
lemma readExact_append {r : BufReader} {bytes rest : List UInt8}
    (h : r.pendingBytes = bytes ++ rest) :
    ∃ r', r.readExact bytes.length = (.done bytes, r') ∧ r'.pendingBytes = rest := by
  obtain ⟨r', hread, hrest⟩ : ∃ r', r.readExact bytes.length = _ ∧ _ :=
    readExact_of_le (by rw [h, List.length_append]; omega)
  rw [h, List.take_left' rfl] at hread
  rw [h, List.drop_left' rfl] at hrest
  exact ⟨r', hread, hrest⟩

/-- A frame that is coming is read in two parts. -/
lemma readExact_split {r : BufReader} {frame rest : List UInt8} {m n : ℕ}
    (h : r.pendingBytes = frame ++ rest) (hlen : frame.length = m + n) :
    ∃ between reader, r.readExact m = (.done (frame.take m), between) ∧
      between.readExact n = (.done (frame.drop m), reader) ∧ reader.pendingBytes = rest := by
  rw [← List.take_append_drop m frame, List.append_assoc] at h
  obtain ⟨between, hhead, hbetween⟩ := readExact_append h
  obtain ⟨reader, hbody, hrest⟩ := readExact_append hbetween
  rw [List.length_take_of_le (by omega)] at hhead
  rw [List.length_drop, hlen, Nat.add_sub_cancel_left] at hbody
  exact ⟨between, reader, hhead, hbody, hrest⟩

end BufReader

/-- Two reads in a row that end well, of a new reader: the bytes they return are the first
bytes of the script, and what the reader has buffered is less than the last chunk it read. -/
lemma readExact_twice {rs : List ReadResult} {r₁ r₂ : BufReader} {m n : ℕ}
    {first second : List UInt8} (h₁ : (BufReader.new rs).readExact m = (.done first, r₁))
    (h₂ : r₁.readExact n = (.done second, r₂)) (hpos : 0 < m) :
    ∃ init c, rs = dataScript (init ++ [c]) ++ r₂.intoInner ∧
      chunkBytes (init ++ [c]) = first ++ second ++ r₂.buf ∧ r₂.buf.length < c.bytes.length := by
  obtain ⟨cs, taken, hrs, hfirst, hlen, hbuf, hlast⟩ := BufReader.readLoop_done h₁
  obtain ⟨ds, taken', hrs', hsecond, hlen', hbuf', hlast'⟩ := BufReader.readLoop_done h₂
  rw [List.nil_append] at hfirst hsecond
  subst hfirst hsecond
  have hbuf₁ : chunkBytes cs = first ++ r₁.buf := hbuf
  have hscript : rs = dataScript (cs ++ ds) ++ r₂.inner := by
    rw [dataScript_append, List.append_assoc, ← hrs']
    exact hrs
  have hbytes : chunkBytes (cs ++ ds) = first ++ second ++ r₂.buf := by
    rw [chunkBytes_append, hbuf₁, List.append_assoc, hbuf', List.append_assoc]
  rcases hlast' with rfl | ⟨init, c, rfl, hc⟩
  · -- the second read was served from the buffer
    rcases hlast with rfl | ⟨init, c, rfl, hc⟩
    · have := congrArg List.length hbuf₁
      rw [chunkBytes_nil, List.length_append] at this
      simp only [List.length_nil] at this
      omega
    · rw [List.append_nil] at hscript hbytes
      refine ⟨init, c, hscript, hbytes, ?_⟩
      have := congrArg List.length hbuf'
      rw [chunkBytes_nil, List.append_nil, List.length_append] at this
      omega
  · rw [← List.append_assoc] at hscript hbytes
    exact ⟨cs ++ init, c, hscript, hbytes, hc⟩

/-- What a reader that is given up leaves for the next one is what follows the bytes it
returned exactly when the last of them was the last of a chunk. -/
theorem intoInner_eq_rest_iff {rs : List ReadResult} {r₁ r₂ : BufReader} {m n : ℕ}
    {first second rest : List UInt8} (h₁ : (BufReader.new rs).readExact m = (.done first, r₁))
    (h₂ : r₁.readExact n = (.done second, r₂)) (hpos : 0 < m)
    (hrest : dataBytes rs = first ++ second ++ rest) :
    dataBytes r₂.intoInner = rest
      ↔ ∃ before after, rs = dataScript before ++ after ∧ chunkBytes before = first ++ second := by
  obtain ⟨init, c, hrs, hbytes, hlt⟩ := readExact_twice h₁ h₂ hpos
  have hrest' : rest = r₂.buf ++ dataBytes r₂.intoInner := by
    rw [hrs, dataBytes_dataScript_append, hbytes, List.append_assoc] at hrest
    exact (List.append_cancel_left hrest).symm
  constructor
  · intro heq
    have hempty : r₂.buf = [] := by
      rw [heq] at hrest'
      exact List.self_eq_append_left.mp hrest'
    rw [hempty, List.append_nil] at hbytes
    exact ⟨init ++ [c], r₂.intoInner, hrs, hbytes⟩
  · rintro ⟨before, after, hbefore, hchunks⟩
    have hcmp := prefix_or_prefix_of_dataScript (hrs.symm.trans hbefore)
    have hempty : r₂.buf = [] := by
      rcases hcmp with ⟨more, hmore⟩ | ⟨more, hmore⟩
      · -- the reader read no further than the boundary
        have := congrArg (fun cs => (chunkBytes cs).length) hmore
        simp only [chunkBytes_append (init ++ [c]), hbytes, hchunks, List.length_append] at this
        exact List.length_eq_zero_iff.mp (by omega)
      · rcases List.eq_nil_or_concat' more with rfl | ⟨more, d, rfl⟩
        · rw [List.append_nil] at hmore
          rw [← hmore, hchunks] at hbytes
          exact List.self_eq_append_right.mp hbytes
        · -- the last chunk would start at the boundary or behind it
          rw [← List.append_assoc] at hmore
          obtain ⟨rfl, hd⟩ := List.append_inj' hmore rfl
          have := congrArg List.length hbytes
          rw [chunkBytes_append, chunkBytes_append, hchunks, chunkBytes_cons, chunkBytes_nil,
            List.append_nil, List.length_append, List.length_append, List.length_append,
            List.length_append, List.length_append] at this
          omega
    rw [hrest', hempty, List.nil_append]

end Fernq
