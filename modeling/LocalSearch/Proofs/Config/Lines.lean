import LocalSearch.Config.Properties
import LocalSearch.Proofs.Dictionary
import LocalSearch.Proofs.Text.Blank
/-!
# Property texts

A property text is read line by line, so texts can be put one after the other, and whatever a value
consists of is read back from the line that writes it.

* `Properties.Line.pair?`, `Properties.Line.garbage?`: what a line says.
* `Properties.ofText_eq_ok_iff`: a text is read unless one of its lines is garbage.
* `Properties.Writable`, `Properties.Says`, `Properties.Writes`: the texts that write a list of
  entries, with blanks, blank lines, comments and either line end.
* `Properties.text_exact`: reading is the inverse of writing.
-/

namespace LocalSearch.Properties

open Text

/-! ## Reading line by line -/

/-- The entry of a line. -/
def Line.pair? : Line → Option (String × String)
  | entry key value => some (key, value)
  | _ => none

/-- The text of a line that says nothing that can be read. -/
def Line.garbage? : Line → Option String
  | garbage line => some line
  | _ => none

/-- Lines are read unless one of them is garbage, wherever their numbers begin. -/
theorem addLines_eq_ok_iff {props out : Properties} {number : Nat} {lines : List (List Char)} :
    addLines props number lines = .ok out ↔
      lines.filterMap (fun line => (readLine line).garbage?) = [] ∧
        out = props.insertAll (lines.filterMap fun line => (readLine line).pair?) := by
  induction lines generalizing props number with
  | nil => simp [addLines, Dictionary.insertAll, eq_comm]
  | cons line rest ih =>
    rw [addLines, List.filterMap_cons, List.filterMap_cons]
    cases readLine line with
    | empty => exact ih
    | entry key value => exact ih
    | garbage line => simp [Line.garbage?]

/-- What a line says does not depend on the blanks around it. -/
theorem readLine_congr {line line' : List Char} (h : trimList line = trimList line') :
    readLine line = readLine line' := by
  unfold readLine
  rw [h]

theorem readLine_dropReturn (line : List Char) : readLine (dropReturn line) = readLine line :=
  readLine_congr (trimList_dropReturn line)

theorem ofText_eq_ok_iff {s : String} {out : Properties} :
    ofText s = .ok out ↔
      (s.toList.splitOn '\n').filterMap (fun line => (readLine line).garbage?) = [] ∧
        out = Dictionary.ofList
          ((s.toList.splitOn '\n').filterMap fun line => (readLine line).pair?) := by
  unfold ofText
  rw [addLines_eq_ok_iff, filterMap_linesOf (fun line => by rw [readLine_dropReturn]) rfl,
    filterMap_linesOf (fun line => by rw [readLine_dropReturn]) rfl]
  rfl

/-- A text after another is read after it. -/
theorem ofText_append_eq_ok_iff {a b : String} {out : Properties} :
    ofText (a ++ "\n" ++ b) = .ok out ↔
      ∃ p q, ofText a = .ok p ∧ ofText b = .ok q ∧ out = p.merge q := by
  have hcut : (a ++ "\n" ++ b).toList.splitOn '\n' =
      a.toList.splitOn '\n' ++ b.toList.splitOn '\n' := by
    rw [String.toList_append, String.toList_append, List.append_assoc]
    exact List.splitOn_append_cons_self _ _
  simp only [ofText_eq_ok_iff, hcut, List.filterMap_append, List.append_eq_nil_iff]
  constructor
  · rintro ⟨⟨ha, hb⟩, rfl⟩
    refine ⟨_, _, ⟨ha, rfl⟩, ⟨hb, rfl⟩, ?_⟩
    rw [Dictionary.merge_ofList]
    exact Dictionary.insertAll_append _ _ _
  · rintro ⟨p, q, ⟨ha, rfl⟩, ⟨hb, rfl⟩, rfl⟩
    refine ⟨⟨ha, hb⟩, ?_⟩
    rw [Dictionary.merge_ofList]
    exact (Dictionary.insertAll_append _ _ _).symm

/-! ## Writing -/

/-- Blanks within a line. -/
def Spaces (cs : List Char) : Prop :=
  Blank cs ∧ '\n' ∉ cs

/-- An entry that can be written on a line. -/
structure Writable (key value : String) : Prop where
  key_trimmed : trim key = key
  value_trimmed : trim value = value
  key_on_line : '\n' ∉ key.toList
  value_on_line : '\n' ∉ value.toList
  /-- The first separator of the line ends the key. -/
  no_equals : '=' ∉ key.toList
  no_colon : ':' ∉ key.toList
  /-- The line is no comment. -/
  no_hash : key.toList.head? ≠ some '#'
  no_bang : key.toList.head? ≠ some '!'

/-- The lines that say nothing, and those that write an entry. -/
inductive Says : Option (String × String) → List Char → Prop
  | blank {spaces : List Char} (h : Spaces spaces) : Says none spaces
  | comment {spaces rest : List Char} {mark : Char} (hspaces : Spaces spaces)
      (hmark : mark = '#' ∨ mark = '!') (hrest : '\n' ∉ rest) : Says none (spaces ++ mark :: rest)
  | entry {key value : String} {first second third fourth : List Char} {separator : Char}
      (h : Writable key value) (hfirst : Spaces first) (hsecond : Spaces second)
      (hseparator : isSeparator separator = true) (hthird : Spaces third)
      (hfourth : Spaces fourth) :
      Says (some (key, value))
        (first ++ key.toList ++ second ++ separator :: (third ++ value.toList ++ fourth))

/-- The texts that write a list of entries. -/
inductive Writes : List (String × String) → List Char → Prop
  | last {pair? : Option (String × String)} {line : List Char} (h : Says pair? line) :
      Writes pair?.toList line
  | line {pair? : Option (String × String)} {entries : List (String × String)}
      {line lineEnd rest : List Char} (h : Says pair? line)
      (hend : lineEnd = ['\n'] ∨ lineEnd = ['\r', '\n']) (hrest : Writes entries rest) :
      Writes (pair?.toList ++ entries) (line ++ lineEnd ++ rest)

/-! ## Reading what was written -/

theorem isBlank_of_isSeparator {c : Char} (h : isSeparator c = true) : isBlank c = false := by
  unfold isSeparator at h
  rcases Bool.or_eq_true _ _ ▸ h with h | h
  · rw [beq_iff_eq.1 h]
    rfl
  · rw [beq_iff_eq.1 h]
    rfl

theorem ne_mark_of_isSeparator {c : Char} (h : isSeparator c = true) : ¬(c = '#' ∨ c = '!') := by
  rintro (rfl | rfl)
  · cases h
  · cases h

/-- The first separator divides a line into a key and a value. -/
theorem readLine_of_trimList {line start rest : List Char} {c : Char}
    (h : trimList line = start ++ c :: rest) (hstart : ∀ d ∈ start, isSeparator d = false)
    (hc : isSeparator c = true) (hmark : ∀ d ∈ start.head?, d ≠ '#' ∧ d ≠ '!') :
    readLine line =
      .entry (String.ofList (trimList start)) (String.ofList (trimList rest)) := by
  have hskip : ∀ d ∈ start, (!isSeparator d) = true := fun d hd => by rw [hstart d hd]; rfl
  have hstop : ¬(!isSeparator c) = true := by simp [hc]
  have hdrop : (start ++ c :: rest).dropWhile (!isSeparator ·) = c :: rest := by
    rw [List.dropWhile_append_of_pos hskip]
    exact List.dropWhile_cons_of_neg (p := fun d => !isSeparator d) hstop
  have htake : (start ++ c :: rest).takeWhile (!isSeparator ·) = start := by
    rw [List.takeWhile_append_of_pos hskip,
      List.takeWhile_cons_of_neg (p := fun d => !isSeparator d) hstop, List.append_nil]
  -- the first character may be the separator, which is no comment mark either
  have hfirst : ∃ first tail,
      start ++ c :: rest = first :: tail ∧ ¬(first = '#' ∨ first = '!') := by
    cases start with
    | nil => exact ⟨c, rest, rfl, ne_mark_of_isSeparator hc⟩
    | cons first tail =>
      have hne := hmark first rfl
      exact ⟨first, tail ++ c :: rest, rfl, fun h => h.elim hne.1 hne.2⟩
  obtain ⟨first, tail, hcons, hne⟩ := hfirst
  unfold readLine
  rw [h]
  rw [hcons] at hdrop htake ⊢
  simp only [if_neg hne, hdrop, htake]

/-- A key between blanks begins as the key does, if anything is left. -/
theorem head?_dropWhile_key {key : String} {first second : List Char} (h : trim key = key)
    (hfirst : Blank first) (hsecond : Blank second) :
    ∀ c ∈ ((first ++ key.toList ++ second).dropWhile isBlank).head?, c ∈ key.toList.head? := by
  rw [List.append_assoc, List.dropWhile_append_of_pos hfirst]
  cases hkey : key.toList with
  | nil =>
    rw [List.nil_append, List.dropWhile_eq_nil_iff.2 hsecond]
    nofun
  | cons c rest =>
    have hc : isBlank c = false :=
      isBlank_of_trimList_eq_cons ((toList_of_trim h).trans hkey)
    rw [List.cons_append, List.dropWhile_cons_of_neg (by simp [hc])]
    exact fun d hd => hd

theorem Spaces.no_separator {spaces : List Char} (h : Spaces spaces) :
    ∀ c ∈ spaces, isSeparator c = false := by
  intro c hc
  by_contra hseparator
  have hnot := isBlank_of_isSeparator (Bool.not_eq_false _ ▸ hseparator)
  rw [h.1 c hc] at hnot
  cases hnot

theorem Writable.no_separator {key value : String} (h : Writable key value) :
    ∀ c ∈ key.toList, isSeparator c = false := by
  intro c hc
  have hequals : c ≠ '=' := fun heq => h.no_equals (heq ▸ hc)
  have hcolon : c ≠ ':' := fun heq => h.no_colon (heq ▸ hc)
  simp [Properties.isSeparator, hequals, hcolon]

theorem Writable.readLine {key value : String} {first second third fourth : List Char}
    {separator : Char} (h : Writable key value) (hfirst : Spaces first) (hsecond : Spaces second)
    (hseparator : isSeparator separator = true) (hthird : Spaces third) (hfourth : Spaces fourth) :
    Properties.readLine (first ++ key.toList ++ second ++
      separator :: (third ++ value.toList ++ fourth)) = .entry key value := by
  have hstart : ∀ c ∈ (first ++ key.toList ++ second).dropWhile isBlank, isSeparator c = false := by
    intro c hc
    rcases List.mem_append.1 ((List.dropWhile_suffix isBlank).subset hc) with hc | hc
    · rcases List.mem_append.1 hc with hc | hc
      · exact hfirst.no_separator c hc
      · exact h.no_separator c hc
    · exact hsecond.no_separator c hc
  have hmark : ∀ c ∈ ((first ++ key.toList ++ second).dropWhile isBlank).head?,
      c ≠ '#' ∧ c ≠ '!' := fun c hc => by
    have hhead := head?_dropWhile_key h.key_trimmed hfirst.1 hsecond.1 c hc
    exact ⟨fun heq => h.no_hash (heq ▸ hhead), fun heq => h.no_bang (heq ▸ hhead)⟩
  have htrimmed := trimList_append_cons (isBlank_of_isSeparator hseparator)
    (first ++ key.toList ++ second) (third ++ value.toList ++ fourth)
  rw [readLine_of_trimList htrimmed hstart hseparator hmark, trimList_dropWhile,
    trimList_rdropWhile, trimList_between h.key_trimmed hfirst.1 hsecond.1,
    trimList_between h.value_trimmed hthird.1 hfourth.1]

theorem Says.readLine {pair? : Option (String × String)} {line : List Char}
    (h : Says pair? line) :
    (Properties.readLine line).pair? = pair? ∧ (Properties.readLine line).garbage? = none := by
  cases h with
  | blank h =>
    have hline : Properties.readLine line = .empty := by
      unfold Properties.readLine
      rw [trimList_eq_nil h.1]
    rw [hline]
    exact ⟨rfl, rfl⟩
  | @comment spaces rest mark hspaces hmark hrest =>
    have hblank : isBlank mark = false := by
      rcases hmark with rfl | rfl
      · rfl
      · rfl
    have hline : Properties.readLine (spaces ++ mark :: rest) = .empty := by
      unfold Properties.readLine
      rw [trimList_append_cons hblank, List.dropWhile_eq_nil_iff.2 hspaces.1, List.nil_append]
      simp only [if_pos hmark]
    rw [hline]
    exact ⟨rfl, rfl⟩
  | entry h hfirst hsecond hseparator hthird hfourth =>
    rw [h.readLine hfirst hsecond hseparator hthird hfourth]
    exact ⟨rfl, rfl⟩

theorem Says.on_line {pair? : Option (String × String)} {line : List Char}
    (h : Says pair? line) : '\n' ∉ line := by
  cases h with
  | blank h => exact h.2
  | comment hspaces hmark hrest =>
    rcases hmark with rfl | rfl
    · simp [hspaces.2, hrest]
    · simp [hspaces.2, hrest]
  | @entry key value first second third fourth separator h hfirst hsecond hseparator hthird
      hfourth =>
    have hne : separator ≠ '\n' := by
      rintro rfl
      cases hseparator
    simp [hfirst.2, hsecond.2, hthird.2, hfourth.2, h.key_on_line, h.value_on_line, hne.symm]

/-- A carriage return before a line feed is one more blank. -/
theorem readLine_append_lineEnd (line : List Char) :
    readLine (line ++ ['\r']) = readLine line := by
  refine readLine_congr (trimList_append_right fun c hc => ?_)
  rw [List.mem_singleton.1 hc]
  rfl

/-- The first line of a text and the others, whatever ends the first one. -/
theorem exists_splitOn_line {pair? : Option (String × String)} {line lineEnd : List Char}
    (h : Says pair? line) (hend : lineEnd = ['\n'] ∨ lineEnd = ['\r', '\n'])
    (rest : List Char) : ∃ first, readLine first = readLine line ∧
      (line ++ lineEnd ++ rest).splitOn '\n' = first :: rest.splitOn '\n' := by
  rcases hend with rfl | rfl
  · refine ⟨line, rfl, ?_⟩
    rw [List.append_assoc]
    exact List.splitOn_append_cons_self_of_not_mem h.on_line rest
  · -- the carriage return stays with the line, as a blank
    refine ⟨line ++ ['\r'], readLine_append_lineEnd line, ?_⟩
    have hreturn : '\n' ∉ line ++ ['\r'] := by simp [h.on_line]
    have hcut : line ++ ['\r', '\n'] ++ rest = line ++ ['\r'] ++ '\n' :: rest := by simp
    rw [hcut]
    exact List.splitOn_append_cons_self_of_not_mem hreturn rest

/-- A text that writes entries has no garbage, and its lines say those entries in order. -/
theorem Writes.readLines {entries : List (String × String)} {cs : List Char}
    (h : Writes entries cs) :
    (cs.splitOn '\n').filterMap (fun line => (readLine line).garbage?) = [] ∧
      (cs.splitOn '\n').filterMap (fun line => (readLine line).pair?) = entries := by
  induction h with
  | @last pair? line h =>
    obtain ⟨hentry, hgarbage⟩ := h.readLine
    rw [List.splitOn_eq_singleton h.on_line]
    cases pair? with
    | none => simp [hentry, hgarbage]
    | some entry => simp [hentry, hgarbage]
  | @line pair? entries line lineEnd rest h hend hrest ih =>
    obtain ⟨hentry, hgarbage⟩ := h.readLine
    obtain ⟨first, hfirst, hcut⟩ := exists_splitOn_line h hend rest
    rw [hcut, List.filterMap_cons, List.filterMap_cons, hfirst, hentry, hgarbage]
    cases pair? with
    | none => exact ih
    | some entry => exact ⟨ih.1, congrArg (entry :: ·) ih.2⟩

theorem Writes.ofText {entries : List (String × String)} {s : String}
    (h : Writes entries s.toList) : ofText s = .ok (Dictionary.ofList entries) := by
  obtain ⟨hgarbage, hentries⟩ := h.readLines
  exact ofText_eq_ok_iff.2 ⟨hgarbage, by rw [hentries]⟩

/-- Texts are read one after the other, the later ones winning, and reading a text that writes a
list of entries gives the dictionary of the list, in which the last value of a key counts. -/
theorem text_exact :
    (∀ (a b : String) (out : Properties), ofText (a ++ "\n" ++ b) = .ok out ↔
      ∃ p q, ofText a = .ok p ∧ ofText b = .ok q ∧ out = p.merge q) ∧
    (∀ (p q : Properties) (key : String),
      (p.merge q).get? key = (q.get? key).or (p.get? key)) ∧
    ∀ (entries : List (String × String)) (s : String), Writes entries s.toList →
      ∃ out, ofText s = .ok out ∧ ∀ key, out.get? key = entries.reverse.lookup key :=
  ⟨fun _ _ _ => ofText_append_eq_ok_iff, Dictionary.get?_merge,
    fun entries _ h => ⟨_, h.ofText, Dictionary.get?_ofList entries⟩⟩

/-- A crowded text: a comment, a blank line, both line ends, a key twice, and a value of marks. -/
theorem text_exact_crowded :
    ∃ out, ofText "# notes = none\n \t\n a.b = old \r\n=empty\na.b:=#! é: \r\nlast=" = .ok out ∧
      ∀ key, out.get? key =
        [("last", ""), ("a.b", "=#! é:"), ("", "empty"), ("a.b", "old")].lookup key := by
  have spaces {cs : List Char} (h : cs.all isBlank = true) (h' : '\n' ∉ cs) : Spaces cs :=
    ⟨List.all_eq_true.1 h, h'⟩
  have old : Writable "a.b" "old" := by constructor <;> decide
  have empty : Writable "" "empty" := by constructor <;> decide
  have marks : Writable "a.b" "=#! é:" := by constructor <;> decide
  have last : Writable "last" "" := by constructor <;> decide
  have zero : Spaces [] := spaces rfl (by decide)
  have one : Spaces [' '] := spaces rfl (by decide)
  have two : Spaces [' ', '\t'] := spaces rfl (by decide)
  have lines : Writes [("a.b", "old"), ("", "empty"), ("a.b", "=#! é:"), ("last", "")] _ :=
    .line (.comment zero (.inl rfl) (by decide : '\n' ∉ " notes = none".toList)) (.inl rfl) <|
    .line (.blank two) (.inl rfl) <|
    .line (.entry old one one (rfl : isSeparator '=' = true) one one) (.inr rfl) <|
    .line (.entry empty zero zero (rfl : isSeparator '=' = true) zero zero) (.inl rfl) <|
    .line (.entry marks zero zero (rfl : isSeparator ':' = true) zero one) (.inr rfl) <|
    .last (.entry last zero zero (rfl : isSeparator '=' = true) zero zero)
  refine text_exact.2.2 _ _ (Eq.subst ?_ lines)
  decide +kernel

end LocalSearch.Properties
