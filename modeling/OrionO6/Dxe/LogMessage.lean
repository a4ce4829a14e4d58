import OrionO6.Library.BoundedText

/-!
# Log messages of the DXE core

A log record is formatted into a buffer of 256 bytes before it goes to the debug UART. The formatter
gives up at the first piece that does not fit, then room is made for the line ending by cutting the
text at byte 254, which is where a character may be in the way.
-/

namespace OrionO6.Dxe

inductive Level where
  | error
  | warn
  | info
  | debug
  | trace
  deriving DecidableEq

def logLevelStr : Level → String
  | .error => "ERROR"
  | .warn => "WARN"
  | .info => "INFO"
  | .debug => "DEBUG"
  | .trace => "TRACE"

@[simp] abbrev logBufferSize : Nat := 256

@[simp] abbrev crlf : String := "\r\n"

/-- What `write!(buffer, "[Patina {}] {}", level, args)` hands to the buffer, piece by piece, when
the format arguments produce the fragments `args`. -/
def patinaPieces (level : String) (args : List String) : List String :=
  ["[Patina ", level, "] "] ++ args

def maxBody : Nat := logBufferSize - crlf.utf8ByteSize

/-- `none` stands for a panic. -/
def formatLogMessage (level : String) (args : List String) : Option (BoundedText logBufferSize) := do
  let buffer := BoundedText.empty.write (patinaPieces level args)
  let buffer ← if buffer.len > maxBody then buffer.truncate? maxBody else some buffer
  pure (buffer.push crlf)

structure Record where
  level : Level
  args : List String

/-- The bytes that `SimpleLogger::log` writes to the UART. -/
def SimpleLogger.log (record : Record) : Option (List UInt8) := do
  let buffer ← formatLogMessage (logLevelStr record.level) record.args
  pure buffer.text.toByteArray.data.toList

/-! ### What is asked of a formatted message -/

def fullText (level : String) (args : List String) : String :=
  String.join (patinaPieces level args)

/-- A formatted message is at most 256 bytes long and ends in CRLF; what comes before is the
beginning of the full text, and all of it where there is room. -/
structure Framed (full out : String) : Prop where
  size_le : out.utf8ByteSize ≤ logBufferSize
  framed : ∃ body dropped, out = body ++ crlf ∧ full = body ++ dropped ∧
    (full.utf8ByteSize ≤ maxBody → body = full)

def KeepsFraming (level : Level) (args : List String) : Prop :=
  ∃ out, formatLogMessage (logLevelStr level) args = some out ∧
    Framed (fullText (logLevelStr level) args) out.text

/-- No leading run of the pieces that is 255 or 256 bytes long has a character across byte 254. -/
def NoCharacterAcross (pieces : List String) : Prop :=
  ∀ taken, taken <+: pieces → maxBody < (String.join taken).utf8ByteSize →
    (String.join taken).utf8ByteSize ≤ logBufferSize →
      String.Pos.Raw.IsValid (String.join taken) ⟨maxBody⟩

theorem utf8ByteSize_crlf : crlf.utf8ByteSize = 2 := by decide

theorem maxBody_eq : maxBody = 254 := by decide

section

variable {level : String} {args : List String}

/-- What `write!` leaves in the buffer. -/
def written (level : String) (args : List String) : BoundedText logBufferSize :=
  BoundedText.empty.write (patinaPieces level args)

theorem text_push_crlf {buffer : BoundedText logBufferSize} (hroom : buffer.len ≤ maxBody) :
    (buffer.push crlf).text = buffer.text ++ crlf := by
  apply BoundedText.push_of_fits
  rw [String.utf8ByteSize_append, utf8ByteSize_crlf]
  rw [maxBody_eq, BoundedText.len] at hroom
  simp only [logBufferSize]
  omega

theorem formatLogMessage_of_short (hshort : (written level args).len ≤ maxBody) :
    formatLogMessage level args = some ((written level args).push crlf) := by
  have hroom : ¬ (written level args).len > maxBody := Nat.not_lt_of_le hshort
  rw [formatLogMessage]
  dsimp only
  rw [← written, if_neg hroom]
  rfl

theorem formatLogMessage_of_long (hlong : maxBody < (written level args).len) :
    formatLogMessage level args =
      ((written level args).truncate? maxBody).map fun buffer => buffer.push crlf := by
  rw [formatLogMessage]
  dsimp only
  rw [← written, if_pos hlong]
  cases (written level args).truncate? maxBody <;> rfl

/-- A leading run of the pieces that fits the buffer begins what is left in it. -/
theorem exists_text_written {taken : List String} (htaken : taken <+: patinaPieces level args)
    (hfits : (String.join taken).utf8ByteSize ≤ logBufferSize) :
    ∃ more, (written level args).text = String.join taken ++ more := by
  obtain ⟨rest, hrest⟩ := htaken
  have hempty : (BoundedText.empty : BoundedText logBufferSize).text ++ String.join taken =
      String.join taken := String.empty_append
  obtain ⟨more, hmore⟩ := @BoundedText.exists_text_write_append _ BoundedText.empty taken
    (by rwa [hempty]) rest
  refine ⟨more, ?_⟩
  rw [written, ← hrest, hmore, hempty]

/-- What is left in the buffer is itself a leading run, so the full text begins with it. -/
theorem exists_taken_written (level : String) (args : List String) :
    ∃ taken rest, patinaPieces level args = taken ++ rest ∧
      (written level args).text = String.join taken ∧
      fullText level args = (written level args).text ++ String.join rest := by
  obtain ⟨taken, rest, hpieces, htext, -⟩ :=
    BoundedText.exists_taken (BoundedText.empty : BoundedText logBufferSize)
      (patinaPieces level args)
  have hwritten : (written level args).text = String.join taken := htext.trans String.empty_append
  refine ⟨taken, rest, hpieces, hwritten, ?_⟩
  rw [fullText, hpieces, String.join_append, hwritten]

theorem text_written_of_fits (hfits : (fullText level args).utf8ByteSize ≤ logBufferSize) :
    (written level args).text = fullText level args := by
  have hempty : (BoundedText.empty : BoundedText logBufferSize).text ++
      String.join (patinaPieces level args) = fullText level args := String.empty_append
  rw [written, BoundedText.text_write_of_fits (by rwa [hempty]), hempty]

/-- Byte 254 of what is left in the buffer falls between two characters, if it is that long. -/
theorem noCharacterAcross_iff :
    NoCharacterAcross (patinaPieces level args) ↔
      (maxBody < (written level args).len →
        String.Pos.Raw.IsValid (written level args).text ⟨maxBody⟩) := by
  constructor
  · intro hclear hlong
    obtain ⟨taken, rest, hpieces, htext, -⟩ := exists_taken_written level args
    have hfits := (written level args).fits
    rw [BoundedText.len] at hlong
    rw [htext] at hlong hfits ⊢
    exact hclear taken ⟨rest, hpieces.symm⟩ hlong hfits
  · intro hvalid taken htaken hlong hfits
    obtain ⟨more, hmore⟩ := exists_text_written htaken hfits
    have hwritten : maxBody < (written level args).len := by
      rw [BoundedText.len, hmore, String.utf8ByteSize_append]
      omega
    have hboundary := hvalid hwritten
    rw [hmore, String.Pos.Raw.isValid_append] at hboundary
    rcases hboundary with hinside | ⟨hpast, -⟩
    · exact hinside
    · exact absurd (String.Pos.Raw.le_iff.mp hpast) (Nat.not_le_of_lt hlong)

theorem framed_of_short (hshort : (written level args).len ≤ maxBody) :
    Framed (fullText level args) ((written level args).push crlf).text := by
  obtain ⟨_, rest, _, _, hfull⟩ := exists_taken_written level args
  refine ⟨((written level args).push crlf).fits, ?_⟩
  refine ⟨(written level args).text, String.join rest, text_push_crlf hshort, hfull, ?_⟩
  intro hsmall
  exact text_written_of_fits (Nat.le_trans hsmall (by decide))

theorem framed_of_cut {shorter : BoundedText logBufferSize} {rest : String}
    (hlong : maxBody < (written level args).len)
    (hcut : (written level args).text = shorter.text ++ rest) (hlen : shorter.len = maxBody) :
    Framed (fullText level args) (shorter.push crlf).text := by
  obtain ⟨_, later, _, _, hfull⟩ := exists_taken_written level args
  refine ⟨(shorter.push crlf).fits, ?_⟩
  refine ⟨shorter.text, rest ++ String.join later, text_push_crlf (Nat.le_of_eq hlen), ?_, ?_⟩
  · rw [hfull, hcut, String.append_assoc]
  · intro hsmall
    rw [hfull, String.utf8ByteSize_append] at hsmall
    rw [BoundedText.len] at hlong
    omega

/-- Whatever the formatter returns keeps the framing. -/
theorem framed_of_formatLogMessage {out : BoundedText logBufferSize}
    (hformat : formatLogMessage level args = some out) :
    Framed (fullText level args) out.text := by
  rcases Nat.lt_or_ge maxBody (written level args).len with hlong | hshort
  · rw [formatLogMessage_of_long hlong] at hformat
    by_cases hboundary : String.Pos.Raw.IsValid (written level args).text ⟨maxBody⟩
    · obtain ⟨shorter, rest, htruncate, hcut, hlen⟩ :=
        BoundedText.exists_truncate?_of_boundary (Nat.le_of_lt hlong) hboundary
      rw [htruncate, Option.map_some] at hformat
      cases hformat
      exact framed_of_cut hlong hcut hlen
    · rw [BoundedText.truncate?_of_inside (Nat.le_of_lt hlong) hboundary] at hformat
      cases hformat
  · rw [formatLogMessage_of_short hshort] at hformat
    cases hformat
    exact framed_of_short hshort

/-- The formatter returns unless a character lies across the cut. -/
theorem isSome_formatLogMessage_iff :
    (formatLogMessage level args).isSome ↔ NoCharacterAcross (patinaPieces level args) := by
  rw [noCharacterAcross_iff]
  rcases Nat.lt_or_ge maxBody (written level args).len with hlong | hshort
  · rw [formatLogMessage_of_long hlong, Option.isSome_map]
    by_cases hboundary : String.Pos.Raw.IsValid (written level args).text ⟨maxBody⟩
    · obtain ⟨shorter, _, htruncate, _, _⟩ :=
        BoundedText.exists_truncate?_of_boundary (Nat.le_of_lt hlong) hboundary
      rw [htruncate]
      exact iff_of_true rfl fun _ => hboundary
    · rw [BoundedText.truncate?_of_inside (Nat.le_of_lt hlong) hboundary]
      exact iff_of_false Bool.false_ne_true fun hvalid => hboundary (hvalid hlong)
  · rw [formatLogMessage_of_short hshort]
    exact iff_of_true rfl fun hlong => absurd hlong (Nat.not_lt_of_le hshort)

end

/-- Whatever reaches the UART ends its line. -/
theorem log_ends_with_crlf {record : Record} {bytes : List UInt8}
    (hlog : SimpleLogger.log record = some bytes) :
    bytes.length ≤ logBufferSize ∧ ∃ body, bytes = body ++ [0x0D, 0x0A] := by
  cases hformat : formatLogMessage (logLevelStr record.level) record.args with
  | none =>
      rw [SimpleLogger.log, hformat] at hlog
      cases hlog
  | some out =>
      rw [SimpleLogger.log, hformat] at hlog
      cases hlog
      obtain ⟨body, _, hout, _, _⟩ := (framed_of_formatLogMessage hformat).framed
      refine ⟨out.fits, body.toByteArray.data.toList, ?_⟩
      have hcrlf : crlf.toByteArray.data.toList = [0x0D, 0x0A] := by decide
      rw [hout, String.toByteArray_append, ByteArray.data_append, Array.toList_append, hcrlf]

/-- **When a log message is framed.** The formatter returns, and keeps every promise about what it
returns, unless a leading run of the pieces fills the buffer with a character across byte 254. -/
theorem keepsFraming_iff (level : Level) (args : List String) :
    KeepsFraming level args ↔ NoCharacterAcross (patinaPieces (logLevelStr level) args) := by
  rw [← isSome_formatLogMessage_iff, Option.isSome_iff_exists]
  constructor
  · rintro ⟨out, hformat, -⟩
    exact ⟨out, hformat⟩
  · rintro ⟨out, hformat⟩
    exact ⟨out, hformat, framed_of_formatLogMessage hformat⟩

/-! ### A message with a character across byte 254 -/

def ascii (count : Nat) : String := String.ofList (List.replicate count 'A')

theorem utf8ByteSize_ascii (count : Nat) : (ascii count).utf8ByteSize = count := by
  induction count with
  | zero => rfl
  | succ count ih =>
      have hsplit : ascii (count + 1) = String.singleton 'A' ++ ascii count := by
        rw [ascii, List.replicate_succ, String.ofList_cons, ascii]
      rw [hsplit, String.utf8ByteSize_append, ih, String.utf8ByteSize_singleton]
      exact Nat.add_comm 1 count

/-- One fragment: 239 ASCII characters and a character of two bytes. -/
def accented : List String := [ascii 239 ++ "é"]

theorem accented_panics :
    formatLogMessage (logLevelStr .info) accented = none ∧ ¬ KeepsFraming .info accented := by
  have hfull : fullText (logLevelStr .info) accented = "[Patina INFO] " ++ ascii 239 ++ "é" := by
    have hprefix : "[Patina " ++ (logLevelStr .info ++ "] ") = "[Patina INFO] " := by decide
    rw [fullText, patinaPieces, accented, String.join_append, ← hprefix, String.append_assoc]
    simp only [String.join_cons, String.join_nil, String.append_empty]
  have hbefore : ("[Patina INFO] " ++ ascii 239).utf8ByteSize = 253 := by
    rw [String.utf8ByteSize_append, utf8ByteSize_ascii]
    decide
  have hsize : (fullText (logLevelStr .info) accented).utf8ByteSize = 255 := by
    rw [hfull, String.utf8ByteSize_append, hbefore]
    decide
  have hwritten : (written (logLevelStr .info) accented).text = _ :=
    text_written_of_fits (by rw [hsize]; decide)
  have hlong : maxBody < (written (logLevelStr .info) accented).len := by
    rw [BoundedText.len, hwritten, hsize]
    decide
  have hinside : ¬ String.Pos.Raw.IsValid (written (logLevelStr .info) accented).text ⟨maxBody⟩ := by
    rw [hwritten, hfull, String.Pos.Raw.isValid_append]
    rintro (hbefore' | ⟨-, haccent⟩)
    · have hle : maxBody ≤ 253 := hbefore ▸ hbefore'.le_utf8ByteSize
      rw [maxBody_eq] at hle
      omega
    · have hone : (⟨maxBody⟩ : String.Pos.Raw) - ("[Patina INFO] " ++ ascii 239) = ⟨1⟩ := by
        rw [String.Pos.Raw.ext_iff, String.Pos.Raw.byteIdx_sub_string, hbefore, maxBody_eq]
        rfl
      rw [hone] at haccent
      exact absurd haccent (by decide)
  have hpanics : formatLogMessage (logLevelStr .info) accented = none := by
    rw [formatLogMessage_of_long hlong,
      BoundedText.truncate?_of_inside (Nat.le_of_lt hlong) hinside, Option.map_none]
  refine ⟨hpanics, ?_⟩
  rintro ⟨out, hformat, -⟩
  rw [hpanics] at hformat
  cases hformat

end OrionO6.Dxe
