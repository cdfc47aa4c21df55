import EditorFormat.Bridge.Basic
import EditorFormat.Proofs.Options.Members
import EditorFormat.Proofs.Session.Delivery
import EditorFormat.Proofs.Text.Positions
import EditorFormat.Proofs.Text.Units
import EditorFormat.Session.Commands

/-!
# The cursor on its way through the bridge

The place of the cursor is sent to a program as a number of UTF-16 code units, and the program
replies with such a number for the formatted text. Turned back into a position, it is the latest one
that has no more units before it (`latestWithin_ofUnitOffset`). `cursor_follows_through_bridge`
follows the cursor from the open document to the program and back.
-/

namespace EditorFormat

open Json (Value)
open Text

namespace Position

/-- The number of UTF-16 code units before a position of a text. -/
def unitsBefore (position : Position) (text : String) : Nat :=
  unitLength (position.before text)

/-- A position of a text is the latest one with at most so many units before it. It is the end of
the text when the text has no more units than that. -/
structure LatestWithin (text : String) (limit : Nat) (position : Position) : Prop where
  isIn : position.IsIn text
  within : position.unitsBefore text ≤ limit
  latest : ∀ other : Position, other.IsIn text → other.unitsBefore text ≤ limit →
    other = position ∨ other.unitsBefore text < position.unitsBefore text
  atEnd : unitLength text.toList ≤ limit → position = (Span.document text).stop

/-- The units before a position are those of the characters before it. -/
theorem unitsBefore_eq {position : Position} {text : String} (h : position.IsIn text) :
    position.unitsBefore text = Text.unitsBefore text.toList (position.offset text) := by
  rw [unitsBefore, Text.unitsBefore_eq, take_offset h]

/-- A number of units is rounded down to the latest position. -/
theorem latestWithin_ofUnitOffset (text : String) (limit : Nat) :
    LatestWithin text limit (ofOffset text (ofUnitOffset text limit)) := by
  have hisIn := isIn_ofOffset text (ofUnitOffset text limit)
  have hle : ofUnitOffset text limit ≤ text.toList.length := charsWithin_le text.toList limit
  have hoffset : (ofOffset text (ofUnitOffset text limit)).offset text = ofUnitOffset text limit := by
    rw [offset_ofOffset, Nat.min_eq_left hle]
  refine ⟨hisIn, ?_, ?_, ?_⟩
  · rw [unitsBefore_eq hisIn, hoffset]
    exact (unitsBefore_le_iff hle limit).2 (Nat.le_refl _)
  · intro other hother hwithin
    rw [unitsBefore_eq hother] at hwithin ⊢
    rw [unitsBefore_eq hisIn, hoffset]
    have hbefore : other.offset text ≤ ofUnitOffset text limit :=
      (unitsBefore_le_iff (offset_le hother) limit).1 hwithin
    rcases Nat.eq_or_lt_of_le hbefore with heq | hlt
    · exact .inl (eq_of_offset_eq hother hisIn (heq.trans hoffset.symm))
    · exact .inr (unitsBefore_lt hlt hle)
  · intro hall
    refine ofOffset_of_le ((unitsBefore_le_iff (Nat.le_refl _) limit).1 ?_)
    rwa [Text.unitsBefore_eq, List.take_length]

/-- A position is the latest one with at most as many units before it as it has. -/
theorem LatestWithin.eq_self {text : String} {position other : Position}
    (h : LatestWithin text (other.unitsBefore text) position) (hother : other.IsIn text) :
    position = other := by
  rcases h.latest other hother (Nat.le_refl _) with heq | hlt
  · exact heq.symm
  · exact absurd h.within (Nat.not_le_of_lt hlt)

end Position

namespace Bridge

/-- The options that are written to the program, with offsets in units. -/
theorem input_options (request : FormatRequest) :
    (input request).field "options" = (inUnits request.code request.options).encode := by
  simp [input, Value.field, Value.ofMembers, Entries.find?_ofPairs, Entries.find?]

/-- The place of the cursor is written in units, when no option has its key. -/
theorem cursor_inUnits {options : CursorOptions}
    (habsent : options.options.extra.find? "cursorOffset" = none) {offset : Nat}
    (hoffset : options.cursorOffset = some offset) (code : String) :
    (inUnits code options).encode.field "cursorOffset" =
      .ofNat (Text.unitsBefore code.toList offset) := by
  have hrest : Entries.find? (inUnits code options).options.members.reverse "cursorOffset" = none :=
    FormatOptions.find?_reverse_members_eq_none (by decide) habsent
  have hcursor : (inUnits code options).cursorOffset =
      some (Text.unitsBefore code.toList offset) := by
    simp only [inUnits, hoffset]
    rfl
  rw [CursorOptions.encode, Value.ofMembers, Value.field, Entries.find?_ofPairs,
    CursorOptions.members, List.reverse_append, Entries.find?_append, hrest, hcursor]
  rfl

/-- A reply with a text and a cursor is a result whose cursor counts characters. -/
theorem outcome_withCursor {output : List UInt8} {text : String} {limit : Nat}
    (h : Reply.read? output = some ⟨some (.withCursor text limit), none⟩) (bridge : Bridge)
    (status : UInt8) (errors : List UInt8) :
    bridge.outcome (.exited status output errors) =
      .ok (.withCursor text (ofUnitOffset text limit)) := by
  have hne : output ≠ [] := by
    rintro rfl
    exact absurd h nofun
  rw [outcome, if_neg fun hfailed => hne hfailed.2, h]
  rfl

end Bridge

namespace Session

variable {σ : Type}

/-- The cursor of a document that is formatted as a whole goes to the program as the number of
units before it. When the program replies with a text and a number of units, then, in place or in
the background, the document has exactly that text and the cursor is at the latest position in it
that has no more units before it, which is where it was when neither has changed. -/
theorem cursor_follows_through_bridge {session : Session σ} {around : Surroundings} {id : FileId}
    {file : OpenFile} {options : FormatOptions} (hfile : session.editor.file? id = some file)
    (hcursor : file.cursor.IsIn file.text)
    (hoptions : session.optionsFor around file = .ok options)
    (habsent : options.extra.find? "cursorOffset" = none) :
    let job := documentJob id file options
    session.formatDocument around id = session.dispatch around job ∧
      ((Bridge.input job.request).field "options").field "cursorOffset" =
        .ofNat (file.cursor.unitsBefore file.text) ∧
      ∀ (bridge : Bridge) (run : Bridge → Value → Bridge.Run) status output errors text limit
        before step current,
        run bridge (Bridge.input job.request) = .exited status output errors →
        Bridge.Reply.read? output = some ⟨some (.withCursor text limit), none⟩ →
        session.Delivers around job (bridge.format run job.request) before step →
        before.editor.file? id = some current →
        step.1 = .applied ∧ Editor.TouchesOnly id before.editor step.2.editor ∧
          ∃ after, step.2.editor.file? id = some after ∧ after.text = text ∧
            Position.LatestWithin text limit after.cursor ∧
            (text = file.text → limit = file.cursor.unitsBefore file.text →
              after.cursor = file.cursor) := by
  intro job
  refine ⟨?_, ?_, ?_⟩
  · exact (formatIn_open hfile around .document).trans (dispatchWith_ok hoptions ..)
  · have hunits : file.cursor.unitsBefore file.text =
        Text.unitsBefore file.text.toList (file.cursor.offset file.text) :=
      Position.unitsBefore_eq hcursor
    have hrest : job.request.options.options.extra.find? "cursorOffset" = none := by
      refine Eq.trans ?_ habsent
      exact (Entries.find?_remove_of_ne _ (by decide)).trans
        (Entries.find?_remove_of_ne _ (by decide))
    rw [Bridge.input_options, hunits]
    exact Bridge.cursor_inUnits hrest rfl file.text
  · intro bridge run status output errors text limit before step current hrun hreply hdelivers
      hcurrent
    have houtcome : bridge.format run job.request =
        .ok (.withCursor text (ofUnitOffset text limit)) := by
      rw [Bridge.format, hrun, Bridge.outcome_withCursor hreply]
    obtain ⟨happlied, htouches, hlanded⟩ := (houtcome ▸ hdelivers).lands hcurrent
    have hlatest := Position.latestWithin_ofUnitOffset text limit
    refine ⟨happlied, htouches, _, hlanded, rfl, hlatest, ?_⟩
    rintro rfl rfl
    exact hlatest.eq_self hcursor

/-- A script whose first character has two units, with the cursor behind it. -/
def tracked : OpenFile :=
  ⟨"script.js", none, "😀x=1", ⟨0, 1⟩, .caret ⟨0, 1⟩⟩

/-- A reply with a text and a cursor behind three units. -/
def spaced : String :=
  "\x7b\"ok\":\x7b\"formatted\":\"😀x = 1;\\n\",\"cursorOffset\":3\x7d\x7d"

/-- A run that gives this reply. -/
def spacing : Bridge → Value → Bridge.Run :=
  fun _ _ => .exited 0 spaced.toUTF8.toList []

/-- A formatter that asks a program each time. -/
def asking : Formatter Unit := fun _ request =>
  match Bridge.usual.format spacing request with
  | .ok result => (.returned result, ())
  | .error error => (.failed error, ())

/-- What the formatter gives is what the program gives. -/
theorem outcome_asking (request : FormatRequest) :
    (asking () request).1.outcome = Bridge.usual.format spacing request := by
  unfold asking
  cases Bridge.usual.format spacing request <;> rfl

/-- A session with the script, in which the program is asked in place. -/
def tracking : Session Unit :=
  { start default false asking (.inline ()) defaultTimeout
    with editor := Editor.empty.openFile "script" tracked }

/-- The cursor behind a character of two units is sent as two units, and three units of the reply
are a cursor behind two characters. -/
theorem cursor_follows_through_bridge_emoji :
    tracking.editor.file? "script" = some tracked ∧ tracked.cursor.IsIn tracked.text ∧
      tracking.optionsFor default tracked = .ok Settings.defaultOptions ∧
      Settings.defaultOptions.extra.find? "cursorOffset" = none ∧
      let job := documentJob "script" tracked Settings.defaultOptions
      ((Bridge.input job.request).field "options").field "cursorOffset" = .ofNat 2 ∧
        (tracking.formatDocument default "script").1 = .applied ∧
        ∃ after, (tracking.formatDocument default "script").2.editor.file? "script" = some after ∧
          after.text = "😀x = 1;\n" ∧ after.cursor = ⟨0, 2⟩ := by
  have hcursor : tracked.cursor.IsIn tracked.text := ⟨"😀x=1".toList, by decide, by decide⟩
  have hreply : Bridge.Reply.read? spaced.toUTF8.toList =
      some ⟨some (.withCursor "😀x = 1;\n" 3), none⟩ := by decide +kernel
  obtain ⟨hformat, hsent, hafter⟩ := cursor_follows_through_bridge
    (show tracking.editor.file? "script" = some tracked from rfl) hcursor
    (show tracking.optionsFor default tracked = .ok Settings.defaultOptions from rfl) rfl
  obtain ⟨happlied, -, after, hfile, htext, hlatest, -⟩ :=
    hafter Bridge.usual spacing 0 _ [] _ 3 tracking _ tracked rfl hreply
      (.inPlace rfl (outcome_asking _)) rfl
  rw [← hformat] at happlied hfile
  have hthree : (⟨0, 2⟩ : Position).unitsBefore "😀x = 1;\n" = 3 := by decide
  have hplace : (⟨0, 2⟩ : Position).IsIn "😀x = 1;\n" := ⟨"😀x = 1;".toList, by decide, by decide⟩
  exact ⟨rfl, hcursor, rfl, rfl, hsent, happlied, after, hfile, htext,
    (hthree ▸ hlatest).eq_self hplace⟩

end Session

end EditorFormat
