import EditorFormat.Files.Path
import Mathlib.Data.List.Basic

/-!
# The parent of a path

The parent of a path is the front of its text that has all components but the last one, and a path
without components, or with the root alone, has none (`parent?_cases`). Trimming looks at a path from
its end, so its text is taken apart at the last slash; the characters at the start that are a
component of their own are kept apart from the names behind them (`Begins`).
-/

namespace EditorFormat.Files.Path

/-! ## Texts between slashes -/

/-- There is always a text before the first slash. -/
theorem parts_ne_nil (text : List Char) : parts text ≠ [] := by
  cases text with
  | nil => exact List.cons_ne_nil _ _
  | cons c rest =>
    rw [parts]
    split
    · exact List.cons_ne_nil _ _
    · split <;> exact List.cons_ne_nil _ _

/-- A slash ends a text. -/
theorem parts_slash (rest : List Char) : parts ('/' :: rest) = [] :: parts rest := by
  obtain ⟨part, later, hparts⟩ := List.exists_cons_of_ne_nil (parts_ne_nil rest)
  rw [parts, hparts]
  exact if_pos rfl

/-- Another character goes on with a text. -/
theorem parts_cons_of_ne {c : Char} (h : c ≠ '/') {rest part : List Char}
    {later : List (List Char)} (hparts : parts rest = part :: later) :
    parts (c :: rest) = (c :: part) :: later := by
  rw [parts, hparts]
  exact if_neg h

/-- The texts on both sides of a slash. -/
theorem parts_append_slash (before rest : List Char) :
    parts (before ++ '/' :: rest) = parts before ++ parts rest := by
  induction before with
  | nil => exact parts_slash rest
  | cons c others ih =>
    rw [List.cons_append]
    by_cases hc : c = '/'
    · rw [hc, parts_slash, parts_slash, ih, List.cons_append]
    · obtain ⟨part, later, hparts⟩ := List.exists_cons_of_ne_nil (parts_ne_nil others)
      rw [hparts, List.cons_append] at ih
      rw [parts_cons_of_ne hc ih, parts_cons_of_ne hc hparts, List.cons_append]

/-- A text without a slash is in one piece. -/
theorem parts_of_notMem {text : List Char} (h : '/' ∉ text) : parts text = [text] := by
  induction text with
  | nil => rfl
  | cons c rest ih =>
    obtain ⟨hc, hrest⟩ := not_or.1 (mt List.mem_cons.2 h)
    exact parts_cons_of_ne (Ne.symm hc) (ih hrest)

/-- The names that some texts between slashes stand for. -/
def namesIn (texts : List (List Char)) : List Component :=
  (texts.filter (!isIdle ·)).map fun text => .name (String.ofList text)

/-- Names are taken from one text after the other. -/
theorem namesIn_append (first second : List (List Char)) :
    namesIn (first ++ second) = namesIn first ++ namesIn second := by
  simp [namesIn]

/-- A text that counts is a name. -/
theorem namesIn_name {text : List Char} (h : isIdle text = false) :
    namesIn [text] = [.name (String.ofList text)] := by
  simp [namesIn, h]

/-! ## How a path begins -/

/-- The characters at the start of a path that are a component of their own, if there are any, what
is behind them, and this component. -/
inductive Begins : List Char → List Char → List Component → Prop where
  | root (body : List Char) : Begins ['/'] body [.root]
  | here {body : List Char} (h : body = [] ∨ body.head? = some '/') : Begins ['.'] body [.here]
  | name {body : List Char} (h : fixedLength body = 0) : Begins [] body []

/-- Each path begins in one of these ways. -/
theorem exists_begins (text : List Char) :
    ∃ start body fixed, text = start ++ body ∧ Begins start body fixed := by
  by_cases h : fixedLength text = 0
  · exact ⟨[], text, [], rfl, .name h⟩
  · unfold fixedLength at h
    split at h
    · exact ⟨_, _, _, rfl, .root _⟩
    · exact ⟨['.'], _, _, rfl, .here (.inr rfl)⟩
    · exact ⟨['.'], [], _, rfl, .here (.inl rfl)⟩
    · exact absurd rfl h

/-- Before the first slash of any other path is a name, unless the path is empty. -/
theorem parts_of_fixedLength {text : List Char} (h : fixedLength text = 0) :
    text = [] ∨ ∃ part later, parts text = part :: later ∧ part ≠ [] ∧ part ≠ ['.'] := by
  cases text with
  | nil => exact .inl rfl
  | cons c rest =>
    have hslash : c ≠ '/' := by
      rintro rfl
      cases h
    obtain ⟨part, later, hparts⟩ := List.exists_cons_of_ne_nil (parts_ne_nil rest)
    refine .inr ⟨c :: part, later, parts_cons_of_ne hslash hparts, List.cons_ne_nil _ _, ?_⟩
    rintro ⟨⟩
    -- a dot of its own would have a slash behind it
    cases rest with
    | nil => cases h
    | cons d others =>
      by_cases hd : d = '/'
      · subst hd
        cases h
      · obtain ⟨first, behind, hbehind⟩ := List.exists_cons_of_ne_nil (parts_ne_nil others)
        rw [parts_cons_of_ne hd hbehind] at hparts
        cases hparts

namespace Begins

variable {start body kept : List Char} {fixed : List Component}

/-- The characters at the start are counted. -/
theorem fixedLength_eq (h : Begins start body fixed) :
    fixedLength (start ++ body) = start.length := by
  cases h with
  | root => rfl
  | here h =>
    rcases h with rfl | hslash
    · rfl
    · obtain ⟨rest, rfl⟩ := List.head?_eq_some_iff.1 hslash
      rfl
  | name h => exact h

/-- The components of a path: what it begins with, and the names behind that. -/
theorem components_eq (h : Begins start body fixed) :
    components (String.ofList (start ++ body)) = fixed ++ namesIn (parts body) := by
  rw [components, String.toList_ofList]
  cases h with
  | root =>
    obtain ⟨part, later, hparts⟩ := List.exists_cons_of_ne_nil (parts_ne_nil body)
    have hslash := parts_slash body
    rw [hparts] at hslash ⊢
    rw [List.singleton_append, hslash]
    rfl
  | here h =>
    rcases h with rfl | hslash
    · rfl
    · obtain ⟨rest, rfl⟩ := List.head?_eq_some_iff.1 hslash
      have hdot : parts (['.'] ++ '/' :: rest) = ['.'] :: parts rest :=
        parts_append_slash ['.'] rest
      rw [hdot, parts_slash]
      rfl
  | name h =>
    rcases parts_of_fixedLength h with rfl | ⟨part, later, hparts, hne, hdot⟩
    · rfl
    · rw [List.nil_append, List.nil_append, hparts]
      split
      · rename_i heq
        exact absurd (List.cons.inj heq).1 hne
      · rename_i heq
        exact absurd (List.cons.inj heq).1 hdot
      · rfl

end Begins

/-! ## Trimming -/

/-- What is behind the last slash. -/
def lastPart (text : List Char) : List Char :=
  (text.reverse.takeWhile (· ≠ '/')).reverse

/-- A part is no longer than the whole. -/
theorem length_lastPart_le (text : List Char) : (lastPart text).length ≤ text.length := by
  have hle := (List.takeWhile_sublist (· ≠ '/') (l := text.reverse)).length_le
  rwa [List.length_reverse, ← List.length_reverse] at hle

/-- A text is in one piece or has a last slash. -/
theorem exists_last_slash (text : List Char) :
    '/' ∉ text ∨ ∃ before last, text = before ++ '/' :: last ∧ '/' ∉ last := by
  by_cases h : '/' ∈ text
  · obtain ⟨last, before, hreverse, hlast⟩ :=
      List.eq_append_cons_of_mem (List.mem_reverse.2 h)
    refine .inr ⟨before.reverse, last.reverse, ?_, mt List.mem_reverse.1 hlast⟩
    rw [← List.reverse_reverse text, hreverse]
    simp
  · exact .inl h

/-- A text in one piece goes on with what is behind the last slash of the text before it. -/
theorem lastPart_append_of_notMem {text : List Char} (h : '/' ∉ text) (before : List Char) :
    lastPart (before ++ text) = lastPart before ++ text := by
  have hall : ∀ c ∈ text.reverse, (decide (c ≠ '/')) = true := by
    intro c hc
    refine decide_eq_true ?_
    rintro rfl
    exact h (List.mem_reverse.1 hc)
  rw [lastPart, List.reverse_append, List.takeWhile_append_of_pos hall, List.reverse_append,
    List.reverse_reverse, lastPart]

/-- There is nothing behind a slash at the end. -/
theorem lastPart_slash (before : List Char) : lastPart (before ++ ['/']) = [] := by
  simp [lastPart]

/-- What is behind the last slash. -/
theorem lastPart_append {last : List Char} (h : '/' ∉ last) (before : List Char) :
    lastPart (before ++ '/' :: last) = last := by
  have htext : before ++ '/' :: last = (before ++ ['/']) ++ last := by simp
  rw [htext, lastPart_append_of_notMem h, lastPart_slash, List.nil_append]

/-- What is behind the last slash of all is behind the last slash of the end. -/
theorem drop_lastPart_append (start body : List Char) :
    (lastPart (start ++ body)).drop
      (start.length - ((start ++ body).length - (lastPart (start ++ body)).length)) =
        lastPart body := by
  have hle := length_lastPart_le start
  rcases exists_last_slash body with hbody | ⟨before, last, rfl, hlast⟩
  · have hown : lastPart body = body := lastPart_append_of_notMem hbody []
    have hcount : start.length - ((start ++ body).length - (lastPart start ++ body).length) =
        (lastPart start).length := by
      simp only [List.length_append]
      omega
    rw [lastPart_append_of_notMem hbody, hcount, List.drop_left, hown]
  · have hcount : start.length - ((start ++ (before ++ '/' :: last)).length - last.length) = 0 := by
      simp only [List.length_append, List.length_cons]
      omega
    rw [← List.append_assoc, lastPart_append hlast, lastPart_append hlast, List.append_assoc, hcount,
      List.drop_zero]

/-- A last part that does not count is taken away, or the slash before it when it is empty. The
names stay. -/
theorem names_take {body : List Char} (hne : body ≠ []) (hidle : isIdle (lastPart body) = true) :
    (body.take (body.length - max 1 (lastPart body).length)).length < body.length ∧
      namesIn (parts (body.take (body.length - max 1 (lastPart body).length))) =
        namesIn (parts body) := by
  have hpos : 0 < body.length := List.length_pos_iff.2 hne
  refine ⟨by rw [List.length_take]; omega, ?_⟩
  have hcases : lastPart body = [] ∨ lastPart body = ['.'] := by
    simpa [isIdle] using hidle
  rcases exists_last_slash body with hbody | ⟨before, last, rfl, hlast⟩
  · have hown : lastPart body = body := lastPart_append_of_notMem hbody []
    rcases hcases with hlast | hlast
    · exact absurd (hown.symm.trans hlast) hne
    · rw [hown] at hlast
      rw [hlast]
      rfl
  · rw [lastPart_append hlast] at hcases ⊢
    rcases hcases with rfl | rfl
    · have htake : (before ++ ['/']).take ((before ++ ['/']).length - max 1 0) = before := by
        simp
      rw [List.length_nil, htake, parts_append_slash, namesIn_append]
      exact (List.append_nil _).symm
    · have htake : (before ++ ['/', '.']).take ((before ++ ['/', '.']).length - max 1 1) =
          before ++ ['/'] := by
        have hcount : (before ++ ['/', '.']).length - max 1 1 = (before ++ ['/']).length := by simp
        have htext : before ++ ['/', '.'] = (before ++ ['/']) ++ ['.'] := by simp
        rw [hcount, htext, List.take_left]
      rw [List.length_singleton, htake, parts_append_slash, parts_append_slash, namesIn_append,
        namesIn_append]
      rfl

/-- One turn of trimming. -/
theorem trimIdle_succ (start : List Char) (fuel : Nat) {body : List Char} (hne : body ≠ []) :
    trimIdle start.length (fuel + 1) (start ++ body) =
      if isIdle (lastPart body) then
        trimIdle start.length fuel
          (start ++ body.take (body.length - max 1 (lastPart body).length))
      else start ++ body := by
  have hpos := List.length_pos_iff.2 hne
  have hlong : ¬ (start ++ body).length ≤ start.length := by
    rw [List.length_append]
    omega
  have hle := length_lastPart_le body
  have htake : (start ++ body).take ((start ++ body).length - max 1 (lastPart body).length) =
      start ++ body.take (body.length - max 1 (lastPart body).length) := by
    have hcount : (start ++ body).length - max 1 (lastPart body).length =
        start.length + (body.length - max 1 (lastPart body).length) := by
      rw [List.length_append]
      omega
    rw [hcount, List.take_length_add_append]
  have hlast := drop_lastPart_append start body
  rw [lastPart] at hlast
  rw [trimIdle, if_neg hlong]
  simp only [hlast, htake]

/-- Trimming leaves what is at the start, and all names behind it. What is left ends with a name. -/
theorem trimIdle_append (start : List Char) (fuel : Nat) (body : List Char)
    (hfuel : body.length < fuel) :
    ∃ kept, trimIdle start.length fuel (start ++ body) = start ++ kept ∧ kept <+: body ∧
      namesIn (parts kept) = namesIn (parts body) ∧
      (kept = [] ∨ isIdle (lastPart kept) = false) := by
  induction fuel generalizing body with
  | zero => exact absurd hfuel (Nat.not_lt_zero _)
  | succ fuel ih =>
    by_cases hne : body = []
    · subst hne
      refine ⟨[], ?_, List.prefix_rfl, rfl, .inl rfl⟩
      rw [trimIdle, if_pos (by simp)]
    · rw [trimIdle_succ start fuel hne]
      cases hidle : isIdle (lastPart body) with
      | true =>
        obtain ⟨hlt, hnames⟩ := names_take hne hidle
        obtain ⟨kept, heq, hstart, hkept, hend⟩ := ih _ (Nat.lt_of_lt_of_le hlt
          (Nat.le_of_lt_succ hfuel))
        rw [hnames] at hkept
        exact ⟨kept, heq, hstart.trans (List.take_prefix ..), hkept, hend⟩
      | false => exact ⟨body, rfl, List.prefix_rfl, rfl, .inr hidle⟩

/-! ## The parent -/

namespace Begins

variable {start body kept : List Char} {fixed : List Component}

/-- The beginning stays when what is behind it is trimmed. -/
theorem of_front (h : Begins start body fixed) (hstart : kept <+: body)
    (hend : kept = [] ∨ isIdle (lastPart kept) = false) : Begins start kept fixed := by
  obtain ⟨behind, rfl⟩ := hstart
  cases h with
  | root => exact .root kept
  | here h =>
    refine .here ?_
    cases kept with
    | nil => exact .inl rfl
    | cons c later => exact h.elim nofun .inr
  | name h =>
    refine .name ?_
    unfold fixedLength
    split
    · cases h
    · cases h
    · exact hend.elim nofun fun hlast => absurd hlast (by decide)
    · rfl

/-- A name at the end is what is behind the last slash. -/
theorem lastPart_eq (h : Begins start body fixed) (hne : body ≠ []) :
    lastPart (start ++ body) = lastPart body := by
  rcases exists_last_slash body with hbody | ⟨before, last, rfl, hlast⟩
  · have hown : lastPart body = body := lastPart_append_of_notMem hbody []
    rw [lastPart_append_of_notMem hbody, hown]
    cases h with
    | root => rfl
    | here h =>
      obtain ⟨rest, rfl⟩ := List.head?_eq_some_iff.1 (h.resolve_left hne)
      exact absurd List.mem_cons_self hbody
    | name => rfl
  · rw [← List.append_assoc, lastPart_append hlast, lastPart_append hlast]

end Begins

/-- The last part of a text and the names before it. -/
theorem exists_front (text : List Char) :
    ∃ front, text = front ++ lastPart text ∧
      namesIn (parts text) = namesIn (parts front) ++ namesIn [lastPart text] := by
  rcases exists_last_slash text with htext | ⟨before, last, rfl, hlast⟩
  · have hown : lastPart text = text := lastPart_append_of_notMem htext []
    refine ⟨[], hown.symm, ?_⟩
    rw [hown, parts_of_notMem htext]
    rfl
  · refine ⟨before ++ ['/'], by rw [lastPart_append hlast]; simp, ?_⟩
    have hempty : namesIn (parts []) = [] := rfl
    rw [lastPart_append hlast, parts_append_slash, parts_append_slash, parts_of_notMem hlast,
      namesIn_append, namesIn_append, hempty, List.append_nil]

/-- A path has a parent unless it has no components or the root alone. The parent is the front of the
path that has all components but the last one. -/
theorem parent?_cases (path : Path) :
    (path.parent? = none ∧ (path.components = [] ∨ path.components = [.root])) ∨
      ∃ folder last, path.parent? = some folder ∧ folder.toList <+: path.toList ∧
        path.components = folder.components ++ [last] ∧ last ≠ .root := by
  obtain ⟨start, body, fixed, htext, hbegins⟩ := exists_begins path.toList
  obtain rfl : path = String.ofList (start ++ body) := by
    rw [← htext, String.ofList_toList]
  obtain ⟨kept, htrim, hstart, hnames, hend⟩ :=
    trimIdle_append start ((start ++ body).length + 1) body (by rw [List.length_append]; omega)
  rw [hbegins.components_eq, ← hnames, parent?, String.toList_ofList, hbegins.fixedLength_eq]
  simp only [htrim]
  by_cases hne : kept = []
  · subst hne
    rw [List.append_nil, if_pos (Nat.le_refl _)]
    cases hbegins with
    | root => exact .inl ⟨rfl, .inr rfl⟩
    | here h => exact .inr ⟨"", .here, rfl, List.nil_prefix, rfl, nofun⟩
    | name h => exact .inl ⟨rfl, .inl rfl⟩
  · have hlong : ¬ (start ++ kept).length ≤ start.length := by
      have hpos := List.length_pos_iff.2 hne
      rw [List.length_append]
      omega
    have hkept := hbegins.of_front hstart hend
    have hlast := hkept.lastPart_eq hne
    rw [lastPart] at hlast
    rw [if_neg hlong]
    simp only [hlast]
    obtain ⟨front, hfront, hall⟩ := exists_front kept
    have htake : (start ++ kept).take ((start ++ kept).length - (lastPart kept).length) =
        start ++ front := by
      have hcount : (start ++ kept).length - (lastPart kept).length = (start ++ front).length := by
        have hlength := congrArg List.length hfront
        simp only [List.length_append] at hlength ⊢
        omega
      have hwhole : start ++ kept = (start ++ front) ++ lastPart kept := by
        rw [List.append_assoc, ← hfront]
      rw [hcount, hwhole, List.take_left]
    have hfrontBody : front <+: body :=
      (hfront ▸ List.prefix_append front (lastPart kept) : front <+: kept).trans hstart
    obtain ⟨before, hbefore, hbeforeFront, hbeforeNames, hbeforeEnd⟩ :=
      trimIdle_append start ((start ++ body).length + 1) front (by
        have hle := hfrontBody.length_le
        simp
        omega)
    rw [htake, hbefore]
    refine .inr ⟨String.ofList (start ++ before), .name (String.ofList (lastPart kept)), rfl, ?_, ?_,
      nofun⟩
    · rw [String.toList_ofList]
      exact (List.prefix_append_right_inj start).2 (hbeforeFront.trans hfrontBody)
    · rw [(hbegins.of_front (hbeforeFront.trans hfrontBody) hbeforeEnd).components_eq,
        hbeforeNames, hall, namesIn_name (hend.resolve_left hne), List.append_assoc]

end EditorFormat.Files.Path
