import EditorFormat.Proofs.Json5.Numbers

/-!
# Reading JSON5 texts

A text of the grammar that denotes a value is read as that value (`Denotes.read?_eq`). Arrays and
objects are read alike, element by element (`elements`). The reader allows as many open containers as
the text has characters, which is more than are opened in it.
-/

namespace EditorFormat.Json5

open Json (Value Object Bracket)

/-! ## Elements -/

/-- A key with its value. -/
def member (value : Reader Value) : Reader (String × Value) := do
  let name ← key
  if (← peekToken) ≠ ':' then failure
  else
    let _ ← next
    return (name, ← value)

/-- An element of a container inside which at most `depth` more may open. -/
def element (depth : Nat) : (bracket : Bracket) → Reader (Element bracket)
  | .square => value depth
  | .curly => member (value depth)

/-- The elements of a container whose bracket was read. -/
def elements (depth : Nat) (bracket : Bracket) : Nat → Reader (List (Element bracket))
  | 0 => failure
  | fuel + 1 => do
    if (← peekToken) = bracket.closing then let _ ← next; pure []
    else
      let first ← element depth bracket
      separator bracket.closing
      return first :: (← elements depth bracket fuel)

/-- Items are elements. -/
theorem items_eq (depth fuel : Nat) : items (value depth) fuel = elements depth .square fuel := by
  induction fuel with
  | zero => rfl
  | succ fuel ih =>
    rw [items, elements, ih]
    rfl

/-- Members are elements that are put into an object one after the other. -/
theorem members_eq (depth fuel : Nat) (found : Object) :
    members (value depth) fuel found =
      (fun later : List (String × Value) =>
        later.foldl (fun found member => Entries.put found member.1 member.2) found) <$>
          elements depth .curly fuel := by
  induction fuel generalizing found with
  | zero => rfl
  | succ fuel ih =>
    have hclosing : Bracket.curly.closing = '\x7d' := rfl
    rw [members, elements, map_bind, hclosing]
    refine bind_congr fun c => ?_
    by_cases hc : c = '\x7d'
    · rw [if_pos hc, if_pos hc, map_bind]
      rfl
    · rw [if_neg hc, if_neg hc]
      simp only [element, member, map_bind, bind_assoc]
      refine bind_congr fun name => bind_congr fun mark => ?_
      by_cases hmark : mark ≠ ':'
      · rw [if_pos hmark, if_pos hmark]
        rfl
      · simp only [if_neg hmark, bind_assoc, pure_bind, ih, map_pure]
        rfl

section Elements

variable {bracket : Bracket} {depth fuel : Nat} {before text after rest : List Char}

/-- A closing bracket is a mark, a token, and no comma. -/
theorem closing_mark (bracket : Bracket) :
    IsMark bracket.closing ∧ IsToken bracket.closing ∧ bracket.closing ≠ ',' := by
  cases bracket <;> simp [IsMark, IsToken, Bracket.closing] <;> decide

/-- A closing bracket is left behind an element. -/
theorem reads_separator_closing (hafter : GapText LineEnds after) (rest : List Char) :
    Reads (separator bracket.closing) (after ++ bracket.closing :: rest) ()
      (bracket.closing :: rest) := by
  obtain ⟨-, htoken, hcomma⟩ := closing_mark bracket
  refine (reads_peekToken_gap hafter htoken rest).bind ?_
  rw [if_neg hcomma, if_pos rfl]
  exact reads_pure () _

/-- A comma is taken off behind an element. -/
theorem reads_separator_comma (hafter : GapText LineEnds after) (rest : List Char) :
    Reads (separator bracket.closing) (after ++ ',' :: rest) () rest := by
  refine (reads_peekToken_gap hafter (by decide) rest).bind ?_
  rw [if_pos rfl]
  exact (reads_next ',' rest).bind (reads_pure () rest)

/-- Behind a gap the elements end at the closing bracket. -/
theorem reads_elements_nil (hgap : GapText LineEnds before) (rest : List Char) :
    Reads (elements depth bracket (fuel + 1)) (before ++ bracket.closing :: rest) [] rest := by
  rw [elements]
  refine (reads_peekToken_gap hgap (closing_mark bracket).2.1 rest).bind ?_
  rw [if_pos rfl]
  exact (reads_next bracket.closing rest).bind (reads_pure _ rest)

/-- The text of an element begins with a token that does not end the container. -/
def IsFront (bracket : Bracket) (text : List Char) : Prop :=
  ∃ c later, text = c :: later ∧ IsToken c ∧ c ≠ bracket.closing

/-- An element is read, and then the others behind what separates them. -/
theorem reads_elements_cons {behind middle : List Char} {first : Element bracket}
    {later : List (Element bracket)} (hbefore : GapText LineEnds before)
    (hfront : IsFront bracket text)
    (hfirst : Reads (element depth bracket) (text ++ behind) first behind)
    (hseparator : Reads (separator bracket.closing) behind () middle)
    (hlater : Reads (elements depth bracket fuel) middle later rest) :
    Reads (elements depth bracket (fuel + 1)) (before ++ (text ++ behind)) (first :: later)
      rest := by
  obtain ⟨c, others, rfl, htoken, hc⟩ := hfront
  rw [elements]
  refine (reads_peekToken_gap hbefore htoken (others ++ behind)).bind ?_
  rw [if_neg hc]
  exact hfirst.bind (hseparator.bind (hlater.map (first :: ·)))

end Elements

/-! ## Values -/

/-- An element begins with a token that does not end its container. -/
theorem Denotes.front {ends : List Char → Prop} {bracket : Bracket} {text : List Char}
    {found : Option (Element bracket)} (h : Denotes ends (.element bracket) text found) :
    IsFront bracket text := by
  cases h with
  | null => exact ⟨'n', "ull".toList, rfl, by decide, by decide⟩
  | true => exact ⟨'t', "rue".toList, rfl, by decide, by decide⟩
  | false => exact ⟨'f', "alse".toList, rfl, by decide, by decide⟩
  | number h =>
    obtain ⟨c, later, rfl, hc⟩ := h.head
    obtain ⟨htoken, hother⟩ := hc.isToken
    refine ⟨c, later, rfl, htoken, ?_⟩
    rintro rfl
    exact hother (by decide)
  | @string quote text chars hquote h =>
    refine ⟨quote, text, rfl, hquote.isToken, ?_⟩
    rcases hquote with rfl | rfl <;> decide
  | @container bracket text elements h =>
    exact ⟨bracket.opening, _, rfl, by cases bracket <;> decide, by cases bracket <;> decide⟩
  | member hkey hbefore hafter h =>
    obtain ⟨c, later, rfl, htoken, hc⟩ := hkey.head
    exact ⟨c, _, rfl, htoken, hc⟩

/-- A gap in front of a value is skipped. -/
theorem reads_value_gap {gap text rest : List Char} {depth : Nat} {found : Value}
    (hgap : GapText LineEnds gap) (h : Reads (value depth) text found rest) :
    Reads (value depth) (gap ++ text) found rest := by
  cases depth with
  | zero => exact h
  | succ depth =>
    have hpeek : StateT.run peekToken (gap ++ text) = StateT.run peekToken text := by
      simp only [peekToken, skipBlanks, StateT.run_bind, StateT.run_get, pure_bind, hgap.skip]
      cases skipGap .open text <;> rfl
    rw [value, Reads, StateT.run_bind] at h ⊢
    rw [hpeek]
    exact h

/-- What is read off the text of a part, if that is followed by what may follow it. -/
def Part.Reads : (part : Part) → List Char → part.Meaning → Prop
  | .element bracket, text, found => ∀ {depth : Nat} {rest : List Char}, text.length ≤ depth →
      EndsToken rest → Json5.Reads (Json5.element (depth + 1) bracket) (text ++ rest) found rest
  | .contents bracket, text, found => ∀ {depth fuel : Nat} {rest : List Char},
      text.length ≤ depth → text.length ≤ fuel →
        Json5.Reads (elements (depth + 1) bracket (fuel + 1)) (text ++ bracket.closing :: rest)
          found rest

/-- A container is read by its elements. -/
theorem reads_container {bracket : Bracket} {text : List Char} {found : List (Element bracket)}
    (h : (Part.contents bracket).Reads text found) {depth : Nat}
    (hdepth : (bracket.opening :: (text ++ [bracket.closing])).length ≤ depth) (rest : List Char) :
    Reads (value (depth + 1)) (bracket.opening :: (text ++ [bracket.closing]) ++ rest)
      (container bracket found) rest := by
  obtain ⟨depth, rfl⟩ := Nat.exists_eq_add_one_of_ne_zero (Nat.ne_zero_of_lt hdepth)
  have hlength : text.length ≤ depth ∧
      text.length ≤ (text ++ bracket.closing :: rest).length := by
    simp only [List.length_cons, List.length_append] at hdepth ⊢
    omega
  have hread : Reads (elements (depth + 1) bracket ((text ++ bracket.closing :: rest).length + 1))
      (text ++ bracket.closing :: rest) found rest := h hlength.1 hlength.2
  rw [List.cons_append, List.append_assoc, List.singleton_append]
  cases bracket with
  | square => exact reads_value_array (by rw [items_eq]; exact hread)
  | curly => exact reads_value_object (by rw [members_eq]; exact hread.map _)

/-- A string is read as a value. -/
theorem reads_value_text {quote : Char} (hquote : IsQuote quote) {text chars : List Char}
    (h : StringText quote text (some chars)) (depth : Nat) (rest : List Char) :
    Reads (value (depth + 1)) (quote :: text ++ rest) (.string (String.ofList chars)) rest := by
  have hread := (reads_stringTail_text hquote h rest).map Value.string
  rw [value]
  refine (reads_peekToken hquote.isToken (text ++ rest)).bind ?_
  rcases hquote with rfl | rfl <;> exact (reads_next _ _).bind hread

/-- A key and a value are read as a member. -/
theorem reads_member {depth : Nat} {name before after text rest : List Char} {found : Option String}
    {key : String} {content : Value} (hname : KeyText name found) (hkey : found = some key)
    (hbefore : GapText LineEnds before) (hafter : GapText LineEnds after)
    (h : Reads (value depth) (text ++ rest) content rest) :
    Reads (member (value depth)) (name ++ (before ++ ':' :: (after ++ text)) ++ rest) (key, content)
      rest := by
  have hend : EndsToken (before ++ ':' :: (after ++ (text ++ rest))) :=
    hbefore.endsToken (by simp [IsMark]) _
  have htext : name ++ (before ++ ':' :: (after ++ text)) ++ rest =
      name ++ (before ++ ':' :: (after ++ (text ++ rest))) := by simp
  rw [htext, member]
  refine (hname.reads hkey hend).bind ((reads_peekToken_gap hbefore (by decide) _).bind ?_)
  rw [if_neg (by decide)]
  exact (reads_next ':' _).bind ((reads_value_gap hafter h).map (key, ·))

/-- What a text denotes is read off it. -/
theorem Denotes.reads {part : Part} {text : List Char} {meaning : Option part.Meaning}
    (h : Denotes LineEnds part text meaning) :
    ∀ found, meaning = some found → part.Reads text found := by
  induction h with
  | null =>
    rintro _ ⟨⟩ depth rest - -
    exact (reads_value_word depth rest).1
  | true =>
    rintro _ ⟨⟩ depth rest - -
    exact (reads_value_word depth rest).2.1
  | false =>
    rintro _ ⟨⟩ depth rest - -
    exact (reads_value_word depth rest).2.2
  | number h =>
    rintro _ ⟨⟩ depth rest - hrest
    have hread := h.reads hrest
    obtain ⟨c, later, rfl, hc⟩ := h.head
    exact reads_value_number hc hread depth
  | string hquote h =>
    intro found hfound depth rest _ _
    obtain ⟨chars, rfl, rfl⟩ := Option.map_eq_some_iff.1 hfound
    exact reads_value_text hquote h depth rest
  | container h ih =>
    intro found hfound depth rest hdepth _
    obtain ⟨elements, helements, rfl⟩ := Option.map_eq_some_iff.1 hfound
    exact reads_container (ih elements helements) hdepth rest
  | @member name before after text key content hkey hbefore hafter h ih =>
    intro found hfound depth rest hdepth hrest
    obtain ⟨key, content, hname, hcontent, rfl⟩ := Option.map₂_eq_some_iff.1 hfound
    have hlength : text.length ≤ depth := by
      simp only [List.length_append, List.length_cons] at hdepth
      omega
    exact reads_member hkey hname hbefore hafter (ih content hcontent hlength hrest)
  | done hgap =>
    rintro _ ⟨⟩ depth fuel rest - -
    exact reads_elements_nil hgap rest
  | @last bracket before text after found hbefore h hafter ih =>
    intro elements helements depth fuel rest hdepth hfuel
    obtain ⟨first, hfirst, rfl⟩ := Option.map_eq_some_iff.1 helements
    have hend : EndsToken (after ++ bracket.closing :: rest) :=
      hafter.endsToken (closing_mark bracket).1 rest
    have hpos : 0 < text.length := by
      obtain ⟨c, later, rfl, -⟩ := h.front
      exact Nat.succ_pos _
    simp only [List.length_append] at hdepth hfuel
    obtain ⟨fuel, rfl⟩ : ∃ fewer, fuel = fewer + 1 := ⟨fuel - 1, by omega⟩
    rw [List.append_assoc, List.append_assoc]
    exact reads_elements_cons hbefore h.front (ih first hfirst (by omega) hend)
      (reads_separator_closing hafter rest) (reads_elements_nil .nil rest)
  | @next bracket before text after others found later hbefore h hafter hothers ih ihothers =>
    intro elements helements depth fuel rest hdepth hfuel
    obtain ⟨first, later, hfirst, hlater, rfl⟩ := Option.map₂_eq_some_iff.1 helements
    have hend : EndsToken (after ++ ',' :: (others ++ bracket.closing :: rest)) :=
      hafter.endsToken (by simp [IsMark]) _
    simp only [List.length_append, List.length_cons] at hdepth hfuel
    obtain ⟨fuel, rfl⟩ : ∃ fewer, fuel = fewer + 1 := ⟨fuel - 1, by omega⟩
    have htext : before ++ (text ++ (after ++ ',' :: others)) ++ bracket.closing :: rest =
        before ++ (text ++ (after ++ ',' :: (others ++ bracket.closing :: rest))) := by simp
    have hread : Reads (Json5.elements (depth + 1) bracket (fuel + 1))
        (others ++ bracket.closing :: rest) later rest :=
      ihothers later hlater (by omega) (by omega)
    rw [htext]
    exact reads_elements_cons hbefore h.front (ih first hfirst (by omega) hend)
      (reads_separator_comma hafter _) hread

/-- A text that denotes a value is read as that value. -/
theorem Denotes.read?_eq {text : List Char} {found : Value}
    (h : Denotes LineEnds (.element .square) text (some found)) :
    read? (String.ofList text) = some found := by
  have hend : EndsToken [] := nofun
  have hread : Reads (value (text.length + 1)) (text ++ []) found [] :=
    h.reads found rfl (Nat.le_refl _) hend
  rw [List.append_nil, Reads] at hread
  rw [read?, String.length_ofList, String.toList_ofList, hread]
  rfl

end EditorFormat.Json5
