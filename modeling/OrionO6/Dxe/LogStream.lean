import OrionO6.Dxe.LogMessage
import OrionO6.Library.Codes

/-!
# The log as a stream

What a whole run of the DXE core writes to the debug UART. As long as no message has a line feed of
its own, the bytes say where every record begins and ends, at which level it was logged, and how far
its message was shown; a message that fits the buffer is shown whole.
-/

namespace OrionO6.Dxe

/-- The bytes that a sequence of calls of `SimpleLogger::log` writes; `none` where one panics. -/
def SimpleLogger.logAll : List Record → Option (List UInt8)
  | [] => some []
  | record :: records => do
      let bytes ← SimpleLogger.log record
      let rest ← SimpleLogger.logAll records
      pure (bytes ++ rest)

/-- A line as it appears on the UART: the level and the part of the message that is shown. -/
structure Line where
  level : Level
  message : String

namespace Line

def text (line : Line) : String :=
  "[Patina " ++ logLevelStr line.level ++ "] " ++ line.message ++ crlf

def bytes (line : Line) : List UInt8 := line.text.toByteArray.data.toList

def OneLine (line : Line) : Prop := '\n' ∉ line.message.toList

end Line

/-- The line that a record becomes: what is written for it are the bytes of the line. -/
structure Record.Shows (record : Record) (line : Line) : Prop where
  logged : SimpleLogger.log record = some line.bytes
  level_eq : line.level = record.level
  isPrefix : ∃ dropped, String.join record.args = line.message ++ dropped
  whole : (fullText (logLevelStr record.level) record.args).utf8ByteSize ≤ maxBody →
    line.message = String.join record.args

/-! ### One record -/

/-- What `format_log_message` writes before the message. -/
def logPrefix (level : String) : String := String.join ["[Patina ", level, "] "]

theorem utf8ByteSize_logPrefix_le (level : Level) :
    (logPrefix (logLevelStr level)).utf8ByteSize ≤ 15 := by
  cases level <;> decide

theorem fullText_eq (level : String) (args : List String) :
    fullText level args = logPrefix level ++ String.join args := by
  rw [fullText, patinaPieces, String.join_append, logPrefix]

section

variable {level : String} {args : List String}

/-- The prefix is written first, so it is in the buffer whatever becomes of the message. -/
theorem exists_written_eq (hroom : (logPrefix level).utf8ByteSize ≤ logBufferSize) :
    ∃ more, (written level args).text = logPrefix level ++ more :=
  exists_text_written ⟨args, rfl⟩ hroom

theorem utf8ByteSize_logPrefix_le_of_format {out : BoundedText logBufferSize} {body : String}
    (hroom : (logPrefix level).utf8ByteSize ≤ maxBody)
    (hformat : formatLogMessage level args = some out) (hout : out.text = body ++ crlf) :
    (logPrefix level).utf8ByteSize ≤ body.utf8ByteSize := by
  rcases Nat.lt_or_ge maxBody (written level args).len with hlong | hshort
  · rw [formatLogMessage_of_long hlong] at hformat
    by_cases hboundary : String.Pos.Raw.IsValid (written level args).text ⟨maxBody⟩
    · obtain ⟨shorter, rest, htruncate, hcut, hlen⟩ :=
        BoundedText.exists_truncate?_of_boundary (Nat.le_of_lt hlong) hboundary
      rw [htruncate, Option.map_some] at hformat
      cases hformat
      rw [text_push_crlf (Nat.le_of_eq hlen), String.append_left_inj] at hout
      rw [← hout]
      exact Nat.le_trans hroom (Nat.le_of_eq hlen.symm)
    · rw [BoundedText.truncate?_of_inside (Nat.le_of_lt hlong) hboundary] at hformat
      cases hformat
  · obtain ⟨more, hmore⟩ := @exists_written_eq level args (Nat.le_trans hroom (by decide))
    rw [formatLogMessage_of_short hshort] at hformat
    cases hformat
    rw [text_push_crlf hshort, String.append_left_inj] at hout
    rw [← hout, hmore, String.utf8ByteSize_append]
    exact Nat.le_add_right _ _

/-- Of two fronts of one text, the one that is no shorter begins with the other. -/
theorem exists_append_of_fronts {first second more rest : String}
    (hfronts : first ++ more = second ++ rest) (hsize : first.utf8ByteSize ≤ second.utf8ByteSize) :
    ∃ middle, second = first ++ middle ∧ more = middle ++ rest := by
  have hlists := congrArg String.toList hfronts
  rw [String.toList_append, String.toList_append] at hlists
  rcases List.append_eq_append_iff.mp hlists with ⟨middle, hsecond, hmore⟩ | ⟨middle, hfirst, hrest⟩
  · refine ⟨String.ofList middle, ?_, ?_⟩ <;> rw [← String.toList_inj, String.toList_append,
      String.toList_ofList]
    · exact hsecond
    · exact hmore
  · have hfirst' : first = second ++ String.ofList middle := by
      rw [← String.toList_inj, String.toList_append, String.toList_ofList]
      exact hfirst
    have hempty : (String.ofList middle).utf8ByteSize = 0 := by
      rw [hfirst', String.utf8ByteSize_append] at hsize
      omega
    have hmiddle : String.ofList middle = "" := String.utf8ByteSize_eq_zero_iff.mp hempty
    rw [hmiddle, String.append_empty] at hfirst'
    refine ⟨"", by rw [hfirst', String.append_empty], ?_⟩
    rw [hfirst'] at hfronts
    rw [String.append_right_inj] at hfronts
    rw [hfronts, String.empty_append]

end

theorem Line.text_eq (line : Line) :
    line.text = logPrefix (logLevelStr line.level) ++ line.message ++ crlf := by
  have hjoin : logPrefix (logLevelStr line.level) = "[Patina " ++ logLevelStr line.level ++ "] " := by
    rw [logPrefix, String.append_assoc]
    simp only [String.join_cons, String.join_nil, String.append_empty]
  rw [Line.text, hjoin]

/-- Every record that is logged becomes one line. -/
theorem exists_shows {record : Record} {bytes : List UInt8}
    (hlog : SimpleLogger.log record = some bytes) :
    ∃ line, record.Shows line ∧ bytes = line.bytes := by
  have hlogged := hlog
  cases hformat : formatLogMessage (logLevelStr record.level) record.args with
  | none =>
      rw [SimpleLogger.log, hformat] at hlog
      cases hlog
  | some out =>
      rw [SimpleLogger.log, hformat] at hlog
      cases hlog
      obtain ⟨body, dropped, hout, hfull, hwhole⟩ := (framed_of_formatLogMessage hformat).framed
      have hroom : (logPrefix (logLevelStr record.level)).utf8ByteSize ≤ maxBody :=
        Nat.le_trans (utf8ByteSize_logPrefix_le record.level) (by decide)
      have hsize := utf8ByteSize_logPrefix_le_of_format hroom hformat hout
      rw [fullText_eq] at hfull hwhole
      obtain ⟨message, rfl, hmessage⟩ := exists_append_of_fronts hfull hsize
      have hbytes : out.text.toByteArray.data.toList = Line.bytes ⟨record.level, message⟩ := by
        rw [Line.bytes, Line.text_eq, hout]
      refine ⟨⟨record.level, message⟩, ⟨?_, rfl, ⟨dropped, hmessage⟩, ?_⟩, hbytes⟩
      · rw [hlogged, hbytes]
      · rw [fullText_eq]
        intro hshort
        have hbody := hwhole hshort
        rwa [String.append_right_inj] at hbody

/-! ### Lines -/

theorem oneLine_of_shows {record : Record} {line : Line} (hshows : record.Shows line)
    (hrecord : '\n' ∉ (String.join record.args).toList) : line.OneLine := by
  obtain ⟨dropped, hdropped⟩ := hshows.isPrefix
  rw [hdropped, String.toList_append] at hrecord
  exact fun hmem => hrecord (List.mem_append_left _ hmem)

/-- The first letter of a level tells which one it is. -/
theorem level_eq_of_head? {level other : Level}
    (hhead : (logLevelStr level).toList.head? = (logLevelStr other).toList.head?) :
    level = other := by
  cases level <;> cases other <;> first | rfl | exact absurd hhead (by decide)

theorem logLevelStr_ne_nil (level : Level) : (logLevelStr level).toList ≠ [] := by
  cases level <;> decide

theorem Line.toList_text (line : Line) : line.text.toList =
    "[Patina ".toList ++ ((logLevelStr line.level).toList ++ ("] ".toList ++
      (line.message.toList ++ ['\r'] ++ ['\n']))) := by
  simp [Line.text, crlf]

theorem selfDelimiting_line : SelfDelimiting (fun line : Line => line.text.toList) Line.OneLine where
  ne_nil := by
    intro line _
    rw [Line.toList_text]
    exact List.append_ne_nil_of_left_ne_nil (by decide) _
  eq_of_append_eq := by
    intro line other rest rest' hline hother happend
    simp only [Line.toList_text, List.append_assoc] at happend
    have hlevels := List.append_cancel_left happend
    have hlevel : line.level = other.level := by
      apply level_eq_of_head?
      have hhead := congrArg List.head? hlevels
      rwa [List.head?_append_of_ne_nil _ (logLevelStr_ne_nil _),
        List.head?_append_of_ne_nil _ (logLevelStr_ne_nil _)] at hhead
    rw [hlevel] at hlevels
    have hmessages := List.append_cancel_left (List.append_cancel_left hlevels)
    have hmessage : line.message.toList ++ ['\r'] = other.message.toList ++ ['\r'] := by
      apply @eq_of_append_mark_eq _ '\n' _ _ rest rest'
      · rw [List.mem_append, not_or]
        exact ⟨hline, by decide⟩
      · rw [List.mem_append, not_or]
        exact ⟨hother, by decide⟩
      · simpa only [List.append_assoc, List.singleton_append] using hmessages
    rw [Line.mk.injEq, ← String.toList_inj]
    exact ⟨hlevel, List.append_cancel_right hmessage⟩

/-! ### The stream -/

theorem exists_lines {records : List Record} {bytes : List UInt8}
    (hlog : SimpleLogger.logAll records = some bytes) :
    ∃ lines, List.Forall₂ Record.Shows records lines ∧ bytes = lines.flatMap Line.bytes := by
  induction records generalizing bytes with
  | nil =>
      cases hlog
      exact ⟨[], .nil, rfl⟩
  | cons record records ih =>
      rw [SimpleLogger.logAll] at hlog
      cases hfirst : SimpleLogger.log record with
      | none =>
          rw [hfirst] at hlog
          cases hlog
      | some front =>
          cases hrest : SimpleLogger.logAll records with
          | none =>
              rw [hfirst, hrest] at hlog
              cases hlog
          | some rest =>
              rw [hfirst, hrest] at hlog
              cases hlog
              obtain ⟨line, hline, rfl⟩ := exists_shows hfirst
              obtain ⟨lines, hlines, rfl⟩ := ih hrest
              exact ⟨line :: lines, .cons hline hlines, rfl⟩

theorem flatMap_bytes (lines : List Line) : lines.flatMap Line.bytes =
    (String.join (lines.map Line.text)).toByteArray.data.toList := by
  induction lines with
  | nil => rfl
  | cons line lines ih =>
      rw [List.flatMap_cons, ih, List.map_cons, String.join_cons, String.toByteArray_append,
        ByteArray.data_append, Array.toList_append, Line.bytes]

theorem flatMap_toList_of_bytes_eq {lines others : List Line}
    (hbytes : lines.flatMap Line.bytes = others.flatMap Line.bytes) :
    lines.flatMap (fun line => line.text.toList) = others.flatMap fun line => line.text.toList := by
  rw [flatMap_bytes, flatMap_bytes, Array.toList_inj] at hbytes
  have htext := String.toByteArray_inj.mp (ByteArray.ext hbytes)
  have hlists := congrArg String.toList htext
  rwa [String.toList_join, String.toList_join, List.flatMap_map, List.flatMap_map] at hlists

theorem forall_oneLine {records : List Record} {lines : List Line}
    (hshows : List.Forall₂ Record.Shows records lines)
    (hrecords : ∀ record ∈ records, '\n' ∉ (String.join record.args).toList) :
    ∀ line ∈ lines, line.OneLine := by
  induction hshows with
  | nil => exact List.forall_mem_nil _
  | cons hline _ ih =>
      obtain ⟨hrecord, hlater⟩ := List.forall_mem_cons.mp hrecords
      exact List.forall_mem_cons.mpr ⟨oneLine_of_shows hline hrecord, ih hlater⟩

/-- **The log can be read back.** Two runs whose messages have no line feed in them and that write
the same bytes to the UART logged the same lines, of which these bytes consist: record by record the
level is the same, and so is the message as far as it was shown, which is all of it where it fits. -/
theorem logAll_splits (records others : List Record) (bytes : List UInt8)
    (hrecords : ∀ record ∈ records, '\n' ∉ (String.join record.args).toList)
    (hothers : ∀ record ∈ others, '\n' ∉ (String.join record.args).toList)
    (hlog : SimpleLogger.logAll records = some bytes)
    (hother : SimpleLogger.logAll others = some bytes) :
    ∃ lines, bytes = lines.flatMap Line.bytes ∧
      List.Forall₂ Record.Shows records lines ∧ List.Forall₂ Record.Shows others lines := by
  obtain ⟨lines, hlines, rfl⟩ := exists_lines hlog
  obtain ⟨lines', hlines', hbytes⟩ := exists_lines hother
  have hsame : lines = lines' := selfDelimiting_line.eq_of_flatMap_eq
    (forall_oneLine hlines hrecords) (forall_oneLine hlines' hothers)
    (flatMap_toList_of_bytes_eq hbytes)
  subst hsame
  exact ⟨lines, rfl, hlines, hlines'⟩

/-- The fragments that the format arguments come in are not seen. -/
theorem logAll_splits_fragments :
    ∃ lines, "[Patina WARN] low\r\n[Patina INFO] hi\r\n".toByteArray.data.toList =
        lines.flatMap Line.bytes ∧
      List.Forall₂ Record.Shows [⟨.warn, ["low"]⟩, ⟨.info, ["hi"]⟩] lines ∧
      List.Forall₂ Record.Shows [⟨.warn, ["lo", "w"]⟩, ⟨.info, ["h", "i"]⟩] lines :=
  logAll_splits _ _ "[Patina WARN] low\r\n[Patina INFO] hi\r\n".toByteArray.data.toList
    (by decide) (by decide) (by decide) (by decide)

end OrionO6.Dxe
