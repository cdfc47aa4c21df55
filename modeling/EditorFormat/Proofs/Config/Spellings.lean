import EditorFormat.Config.Format
import EditorFormat.Proofs.Config.Exports
import EditorFormat.Proofs.Config.JsonText

/-!
# Scripts that export JSON

A script that exports the compact text of an object holds the same options as this text itself
(`parse_script_iff_parse_json`), in whichever spelling it is exported and whatever the strings and
keys of the object look like.
-/

namespace EditorFormat.Config

open Json (Value Object mapError_eq_ok)
open Json.Printer (compact)
open Script (Spelling)

/-- A script that exports an object without floats is read with some options exactly when the
compact text of the object is read with these options. -/
theorem parse_script_iff_parse_json {members : Object}
    (h : (Value.object members).Bounded (fun _ => False) Json.Reader.depthLimit)
    (spelling : Spelling) (words : Wording) (options : FormatOptions) :
    parse words .script (String.ofList (spelling.text (compact (.object members)) [';'])) =
        .ok options ↔
      parse words .json (Value.object members).compact = .ok options := by
  have hscript : Script.evaluate
      (String.ofList (spelling.text (compact (.object members)) [';'])) =
        (FormatOptions.decode (.object members)).mapError .mismatch :=
    (Script.evaluate_text (Json.isObject_compact h) Script.ends_semicolon spelling).trans
      (Script.literalOptions_compact h)
  rw [parse, parse, hscript, mapError_eq_ok, mapError_eq_ok, mapError_eq_ok, ofJson_compact h]

/-- A value whose strings and keys look like parts of a script. -/
def scriptLike : Value :=
  .array [.string "\x7d];\\\"//", .object [("[", .int (-1))]]

/-- Two options and a key that looks like a part of a script. -/
def scriptLikeMembers : Object :=
  [("*/ export default", scriptLike), ("printWidth", .int 100), ("semi", .bool false)]

/-- The options in that object. -/
def scriptLikeOptions : FormatOptions :=
  { (FormatOptions.empty.set .printWidth (some (100 : UInt32))).set .semi (some false) with
    extra := [("*/ export default", scriptLike)] }

/-- The text of that object. -/
def scriptLikeText : String :=
  "\x7b\"*/ export default\":[\"\x7d];\\\\\\\"//\",\x7b\"[\":-1\x7d]," ++
    "\"printWidth\":100,\"semi\":false\x7d"

/-- The text is that of the object. -/
theorem compact_scriptLike : compact (.object scriptLikeMembers) = scriptLikeText.toList := by
  decide +kernel

/-- The object is within bounds. -/
theorem bounded_scriptLike :
    (Value.object scriptLikeMembers).Bounded (fun _ => False) Json.Reader.depthLimit := by
  refine ⟨by decide, ?_, ?_⟩
  · rw [Entries.Sorted]
    decide +kernel
  · simp [scriptLikeMembers, scriptLike, Value.Bounded, Json.IsInteger, Entries.Sorted]

/-- The name `$x`. -/
def dollarName : Script.Name :=
  ⟨'$', ['x'], by decide, fun c hc => Script.isNameChar_of_ascii (by revert c; simp)⟩

/-- The object is read off a script as it is read off its text. -/
theorem parse_scriptLike :
    parse default .json scriptLikeText = .ok scriptLikeOptions ∧
      parse default .script ("let $x = " ++ scriptLikeText ++ ";\nexport default $x;") =
        .ok scriptLikeOptions := by
  have hjson : parse default .json (Value.object scriptLikeMembers).compact =
      .ok scriptLikeOptions := by
    rw [parse, mapError_eq_ok, ofJson_compact bounded_scriptLike]
    rfl
  have hscript := (parse_script_iff_parse_json bounded_scriptLike
    (.binding .let dollarName) default scriptLikeOptions).2 hjson
  have htext : (Spelling.binding .let dollarName).text
      (compact (.object scriptLikeMembers)) [';'] =
        ("let $x = " ++ scriptLikeText ++ ";\nexport default $x;").toList := by
    rw [compact_scriptLike, String.toList_append, String.toList_append]
    rfl
  rw [Value.compact, compact_scriptLike, String.ofList_toList] at hjson
  rw [htext, String.ofList_toList] at hscript
  exact ⟨hjson, hscript⟩

end EditorFormat.Config
