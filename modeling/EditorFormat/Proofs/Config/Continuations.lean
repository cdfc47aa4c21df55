import EditorFormat.Proofs.Config.Exports

/-!
# What is done with an exported literal

A script may go on behind its object literal, or behind the name that it exports: with the member of
an object, with an index or with a call. What it exports is then no object literal. The text behind
the literal and behind the name is never looked at, so the options are those of the literal
(`evaluate_ignores_continuation`).
-/

namespace EditorFormat.Config.Script

open Json (IsObject)

/-- What can be done with a value. -/
inductive Access where
  | member (name : Name)
  | index (inside : List Char)
  | call (inside : List Char)

/-- An access as it is written. -/
def Access.text : Access → List Char
  | .member name => '.' :: name.chars
  | .index inside => '[' :: (inside ++ [']'])
  | .call inside => '(' :: (inside ++ [')'])

/-- What follows an exported value: an access, and perhaps a semicolon. -/
structure Continuation where
  access : Access
  semicolon : Bool

/-- A continuation as it is written. -/
def Continuation.text (continuation : Continuation) : List Char :=
  continuation.access.text ++ if continuation.semicolon then [';'] else []

/-- A continuation ends a name. -/
theorem Continuation.ends (continuation : Continuation) : Ends continuation.text := by
  obtain ⟨access, semicolon⟩ := continuation
  cases access <;> (rintro c ⟨⟩; exact ⟨isNameChar_of_ascii (by decide), by decide⟩)

/-- What is done with an exported object literal, or with a name that is bound to one, changes
nothing: the options are those of the literal, just as if it were exported as it is. -/
theorem evaluate_ignores_continuation {literal : List Char} (h : IsObject literal)
    (continuation : Continuation) (spelling : Spelling) :
    evaluate (String.ofList (spelling.text literal continuation.text)) =
      evaluate (String.ofList (Spelling.moduleExports.text literal [';'])) := by
  rw [evaluate_text h continuation.ends, evaluate_text h ends_semicolon]

/-- An object with one option. -/
def semiFalse : Json.Object :=
  [("semi", .bool false)]

/-- The object is within bounds. -/
theorem bounded_semiFalse : (Json.Value.object semiFalse).Bounded (fun _ => False) 2 :=
  ⟨by decide, by simp [Entries.Sorted, semiFalse], by simp [Json.Value.Bounded, semiFalse]⟩

/-- The options of that object. -/
theorem evaluate_semiFalse :
    evaluate (String.ofList (Spelling.moduleExports.text
      (Json.Printer.compact (.object semiFalse)) [';'])) =
        .ok (FormatOptions.empty.set .semi (some false)) := by
  rw [evaluate_text (Json.isObject_compact bounded_semiFalse) ends_semicolon,
    literalOptions_compact bounded_semiFalse]
  rfl

/-- The name `n`. -/
def shortName : Name :=
  ⟨'n', [], by decide, nofun⟩

/-- The member of a literal, and a call of a name that is bound to it, are read as the literal. -/
theorem evaluate_ignores_member_and_call :
    IsObject "\x7b\"semi\":false\x7d".toList ∧
      evaluate "module.exports = \x7b\"semi\":false\x7d.n;" =
        .ok (FormatOptions.empty.set .semi (some false)) ∧
      evaluate "const n = \x7b\"semi\":false\x7d;\nexport default n(1)" =
        .ok (FormatOptions.empty.set .semi (some false)) := by
  have hobject := Json.isObject_compact bounded_semiFalse
  have hmember := evaluate_ignores_continuation hobject ⟨.member shortName, true⟩ .moduleExports
  have hcall := evaluate_ignores_continuation hobject ⟨.call ['1'], false⟩
    (.binding .const shortName)
  rw [evaluate_semiFalse] at hmember hcall
  have htext : Json.Printer.compact (.object semiFalse) = "\x7b\"semi\":false\x7d".toList := by
    decide +kernel
  rw [htext] at hobject hmember hcall
  exact ⟨hobject, hmember, hcall⟩

/-- Nothing is accepted but an object literal that is exported as it is. -/
def RejectsContinuations : Prop :=
  ∀ (literal : List Char) (continuation : Continuation) (name : Name), IsObject literal →
    (∃ error, evaluate (String.ofList
      (Spelling.moduleExports.text literal continuation.text)) = .error error) ∧
    ∃ error, evaluate (String.ofList
      ((Spelling.binding .const name).text literal continuation.text)) = .error error

/-- The options of a literal are read although its member is exported. -/
theorem member_is_read_as_literal : ¬ RejectsContinuations := by
  intro h
  have hobject := Json.isObject_compact bounded_semiFalse
  obtain ⟨⟨error, herror⟩, -⟩ := h _ ⟨.member shortName, true⟩ shortName hobject
  have hends := (Continuation.mk (.member shortName) true).ends
  rw [evaluate_text hobject hends, literalOptions_compact bounded_semiFalse] at herror
  exact absurd herror nofun

end EditorFormat.Config.Script
