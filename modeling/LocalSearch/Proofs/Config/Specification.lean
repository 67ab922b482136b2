import LocalSearch.Registry
import LocalSearch.Proofs.Computation
import LocalSearch.Proofs.Signs
import LocalSearch.Proofs.Text.Blank
import LocalSearch.Proofs.Text.Numeral
/-!
# Specifications of selectors

A specification is read part by part, and the first part with a bad bonus decides the error.

* `Specification.Keyed`, `Specification.Says`, `Specification.Writes`: the texts that write a list
  of selectors, with blanks and blank parts.
* `Specification.Begins`, `Specification.Fails`: the texts in which some entries are followed by one
  with a bad bonus.
* `Specification.text_names_selectors`: the selectors that are read and built, or the error.
-/

namespace LocalSearch.Specification

open Text

/-! ## Texts -/

/-- A key that can stand in a specification. -/
structure Keyed (key : String) : Prop where
  trimmed : trim key = key
  no_semicolon : ';' ∉ key.toList
  no_at : '@' ∉ key.toList

/-- The parts that say nothing, and those that name a selector. -/
inductive Says : Option (Specification Float) → List Char → Prop
  | blank {blanks : List Char} (h : Blank blanks) : Says none blanks
  | key {key : String} {first second : List Char} (h : Keyed key) (hne : key ≠ "")
      (hfirst : Blank first) (hsecond : Blank second) :
      Says (some ⟨key, 1⟩) (first ++ key.toList ++ second)
  | bonus {key text : String} {bonus : Float} {first second third fourth : List Char}
      (h : Keyed key) (hread : Scalar.parse? text = some bonus) (hsign : ¬bonus < 0)
      (hfirst : Blank first) (hsecond : Blank second) (hthird : Blank third)
      (hfourth : Blank fourth) :
      Says (some ⟨key, bonus⟩)
        (first ++ key.toList ++ second ++ '@' :: (third ++ text.toList ++ fourth))

/-- Parts with a semicolon after each of them. -/
inductive Begins : List (Specification Float) → List Char → Prop
  | nil : Begins [] []
  | part {spec? : Option (Specification Float)} {specs : List (Specification Float)}
      {part rest : List Char} (h : Says spec? part) (hrest : Begins specs rest) :
      Begins (spec?.toList ++ specs) (part ++ ';' :: rest)

/-- Parts with a semicolon between each of them and the next. -/
inductive Writes : List (Specification Float) → List Char → Prop
  | parts {spec? : Option (Specification Float)} {specs : List (Specification Float)}
      {start last : List Char} (hstart : Begins specs start) (hlast : Says spec? last) :
      Writes (specs ++ spec?.toList) (start ++ last)

/-- An entry with a bonus that cannot be read or is negative, whatever follows it, and the error
that this is. The bonus ends at the next semicolon. -/
inductive Fails : ConfigError → List Char → Prop
  | malformed {key : String} {first second rest : List Char} (h : Keyed key)
      (hfirst : Blank first) (hsecond : Blank second)
      (hread : (Scalar.parse? (String.ofList (trimList (rest.takeWhile (· ≠ ';')))) :
        Option Float) = none) :
      Fails (.malformed key (String.ofList ((rest.takeWhile (· ≠ ';')).rdropWhile isBlank))
        "a selector bonus") (first ++ key.toList ++ second ++ '@' :: rest)
  | negative {key : String} {bonus : Float} {first second rest : List Char} (h : Keyed key)
      (hfirst : Blank first) (hsecond : Blank second)
      (hread : Scalar.parse? (String.ofList (trimList (rest.takeWhile (· ≠ ';')))) = some bonus)
      (hsign : bonus < 0) :
      Fails (.invalid ("selector " ++ String.ofList ((key.toList ++ second).dropWhile isBlank) ++
        " has a negative bonus")) (first ++ key.toList ++ second ++ '@' :: rest)

/-! ## One part -/

theorem ne_of_isBlank {c d : Char} (h : isBlank c = true) (hd : isBlank d = false) : c ≠ d := by
  rintro rfl
  rw [h] at hd
  cases hd

theorem parsePart_of_no_at {part : List Char} (h : '@' ∉ part) :
    parsePart part = .ok (⟨String.ofList part, 1⟩ : Specification Float) := by
  have hnone : part.dropWhile (· ≠ '@') = [] :=
    List.dropWhile_eq_nil_iff.2 fun c hc => decide_eq_true fun heq => h (heq ▸ hc)
  unfold parsePart
  rw [hnone]

/-- The first `@` ends the key. -/
theorem parsePart_of_at {key : String} {first second : List Char} (h : Keyed key)
    (hfirst : Blank first) (hsecond : Blank second) (rest : List Char) :
    parsePart (trimList (first ++ key.toList ++ second ++ '@' :: rest)) =
      match (Scalar.parse? (String.ofList (trimList rest)) : Option Float) with
      | none => .error (.malformed key (String.ofList (rest.rdropWhile isBlank)) "a selector bonus")
      | some bonus =>
        if bonus < 0 then
          .error (.invalid ("selector " ++
            String.ofList ((key.toList ++ second).dropWhile isBlank) ++ " has a negative bonus"))
        else .ok ⟨key, bonus⟩ := by
  -- the blanks behind the key stay in the part until the key itself is trimmed
  have hstart : (first ++ key.toList ++ second).dropWhile isBlank =
      (key.toList ++ second).dropWhile isBlank := by
    rw [List.append_assoc, List.dropWhile_append_of_pos hfirst]
  have hkeep : ∀ c ∈ (key.toList ++ second).dropWhile isBlank, decide (c ≠ '@') = true := by
    intro c hc
    rw [decide_eq_true_eq]
    rcases List.mem_append.1 ((List.dropWhile_suffix isBlank).subset hc) with hc | hc
    · exact fun heq => h.no_at (heq ▸ hc)
    · exact ne_of_isBlank (hsecond c hc) rfl
  have hkey : String.ofList (trimList ((key.toList ++ second).dropWhile isBlank)) = key := by
    rw [trimList_dropWhile, trimList_append_right hsecond, toList_of_trim h.trimmed,
      String.ofList_toList]
  rw [trimList_append_cons rfl, hstart]
  unfold parsePart
  rw [List.dropWhile_append_of_pos hkeep, List.takeWhile_append_of_pos hkeep]
  simp only [ne_eq, not_true_eq_false, decide_false, Bool.false_eq_true, not_false_eq_true,
    List.dropWhile_cons_of_neg, List.takeWhile_cons_of_neg, List.append_nil, trimList_rdropWhile,
    hkey]
  cases (Scalar.parse? (String.ofList (trimList rest)) : Option Float) with
  | none => rfl
  | some bonus => rfl

/-! ## All parts -/

/-- Reads parts in order. -/
def readParts (parts : List (List Char)) : Except ConfigError (List (Specification Float)) :=
  ((parts.map trimList).filter (!·.isEmpty)).mapM parsePart

theorem readParts_cons_of_blank {part : List Char} (h : Blank part) (rest : List (List Char)) :
    readParts (part :: rest) = readParts rest := by
  simp [readParts, trimList_eq_nil h]

theorem readParts_cons {part : List Char} (h : trimList part ≠ []) (rest : List (List Char)) :
    readParts (part :: rest) = do
      let spec ← parsePart (trimList part)
      return spec :: (← readParts rest) := by
  have hfilter : ((part :: rest).map trimList).filter (!·.isEmpty) =
      trimList part :: (rest.map trimList).filter (!·.isEmpty) :=
    List.filter_cons_of_pos (by simp [h])
  rw [readParts, hfilter, List.mapM_cons]
  rfl

/-- A bonus has neither blanks nor semicolons in it. -/
theorem numeral_of_parse? {text : String} {bonus : Float}
    (h : Scalar.parse? text = some bonus) : trim text = text ∧ ';' ∉ text.toList := by
  have hnumeral : Numeral text.toList := numeral_of_readDecimal? h
  constructor
  · rw [trim, trimList_of_not_blank fun c hc => isBlank_of_isNumeral (hnumeral c hc),
      String.ofList_toList]
  · intro hmem
    cases hnumeral _ hmem

theorem no_semicolon_of_blank {blanks : List Char} (h : Blank blanks) : ';' ∉ blanks :=
  fun hmem => ne_of_isBlank (h ';' hmem) rfl rfl

theorem Says.no_semicolon {spec? : Option (Specification Float)} {part : List Char}
    (h : Says spec? part) : ';' ∉ part := by
  cases h with
  | blank h => exact no_semicolon_of_blank h
  | key h hne hfirst hsecond =>
    simp [no_semicolon_of_blank hfirst, no_semicolon_of_blank hsecond, h.no_semicolon]
  | bonus h hread hsign hfirst hsecond hthird hfourth =>
    simp [no_semicolon_of_blank hfirst, no_semicolon_of_blank hsecond,
      no_semicolon_of_blank hthird, no_semicolon_of_blank hfourth, h.no_semicolon,
      numeral_of_parse? hread]

/-- A part that says something is read before the others. -/
theorem Says.read {spec? : Option (Specification Float)} {part : List Char}
    (h : Says spec? part) (rest : List (List Char)) :
    readParts (part :: rest) = (spec?.toList ++ ·) <$> readParts rest := by
  cases h with
  | blank h =>
    rw [readParts_cons_of_blank h]
    exact (id_map (readParts rest)).symm
  | @key key first second h hne hfirst hsecond =>
    have htrim : trimList (first ++ key.toList ++ second) = key.toList := by
      rw [trimList_append_right hsecond, trimList_append_left hfirst, toList_of_trim h.trimmed]
    have hsome : trimList (first ++ key.toList ++ second) ≠ [] := by
      rw [htrim]
      exact fun hnil => hne (String.toList_eq_nil_iff.1 hnil)
    rw [readParts_cons hsome, htrim, parsePart_of_no_at h.no_at, String.ofList_toList]
    rfl
  | @bonus key text bonus first second third fourth h hread hsign hfirst hsecond hthird hfourth =>
    rw [readParts_cons (trimList_append_cons_ne_nil rfl _ _), parsePart_of_at h hfirst hsecond,
      trimList_between (numeral_of_parse? hread).1 hthird hfourth, hread]
    simp only [if_neg hsign]
    rfl

/-- The parts up to a semicolon are read before those after it. -/
theorem Begins.read {specs : List (Specification Float)} {start : List Char}
    (h : Begins specs start) (rest : List Char) :
    readParts ((start ++ rest).splitOn ';') = (specs ++ ·) <$> readParts (rest.splitOn ';') := by
  induction h with
  | nil => exact (id_map _).symm
  | @part spec? specs part start h _ ih =>
    rw [List.append_assoc, List.cons_append,
      List.splitOn_append_cons_self_of_not_mem h.no_semicolon, h.read, ih]
    simp [Functor.map_map, List.append_assoc]

theorem Writes.read {specs : List (Specification Float)} {cs : List Char} (h : Writes specs cs) :
    readParts (cs.splitOn ';') = .ok specs := by
  cases h with
  | @parts spec? specs start last hstart hlast =>
    rw [hstart.read, List.splitOn_eq_singleton hlast.no_semicolon, hlast.read]
    simp [readParts]

/-- The part that goes on up to the next semicolon comes first. -/
theorem exists_splitOn_takeWhile {before : List Char} (h : ';' ∉ before) (rest : List Char) :
    ∃ others, (before ++ rest).splitOn ';' = (before ++ rest.takeWhile (· ≠ ';')) :: others := by
  have htake : ';' ∉ before ++ rest.takeWhile (· ≠ ';') := fun hmem =>
    (List.mem_append.1 hmem).elim h fun hmem => by simpa using List.mem_takeWhile_imp hmem
  have hcut := List.takeWhile_append_dropWhile (p := fun c => decide (c ≠ ';')) (l := rest)
  cases hdrop : rest.dropWhile (· ≠ ';') with
  | nil =>
    rw [hdrop, List.append_nil] at hcut
    rw [hcut] at htake ⊢
    exact ⟨[], List.splitOn_eq_singleton htake⟩
  | cons c others =>
    have hc : c = ';' := by
      have hhead := List.head?_dropWhile_not (fun c => decide (c ≠ ';')) rest
      rw [hdrop] at hhead
      simpa using hhead
    rw [hdrop, hc] at hcut
    refine ⟨others.splitOn ';', ?_⟩
    conv_lhs => rw [← hcut, ← List.append_assoc]
    exact List.splitOn_append_cons_self_of_not_mem htake others

/-- A part that cannot be read decides, whatever follows it. -/
theorem readParts_of_at {key : String} {first second rest : List Char} {error : ConfigError}
    (h : Keyed key) (hfirst : Blank first) (hsecond : Blank second)
    (herror : parsePart (trimList
      (first ++ key.toList ++ second ++ '@' :: rest.takeWhile (· ≠ ';'))) =
        (.error error : Except ConfigError (Specification Float))) :
    readParts ((first ++ key.toList ++ second ++ '@' :: rest).splitOn ';') = .error error := by
  have hbefore : ';' ∉ first ++ key.toList ++ second ++ ['@'] := by
    simp [no_semicolon_of_blank hfirst, no_semicolon_of_blank hsecond, h.no_semicolon]
  obtain ⟨others, hothers⟩ := exists_splitOn_takeWhile hbefore rest
  rw [List.append_assoc _ ['@'], List.append_assoc _ ['@'], List.singleton_append,
    List.singleton_append] at hothers
  rw [hothers, readParts_cons (trimList_append_cons_ne_nil rfl _ _), herror]
  rfl

theorem Fails.read {error : ConfigError} {cs : List Char} (h : Fails error cs) :
    readParts (cs.splitOn ';') = .error error := by
  cases h with
  | malformed h hfirst hsecond hread =>
    refine readParts_of_at h hfirst hsecond ?_
    rw [parsePart_of_at h hfirst hsecond, hread]
  | negative h hfirst hsecond hread hsign =>
    refine readParts_of_at h hfirst hsecond ?_
    rw [parsePart_of_at h hfirst hsecond, hread]
    exact if_pos hsign

/-- A text is read if all its parts are, and some part is not blank. -/
theorem parse_eq_ok_iff {α : Type} [Scalar α] {text : String} {specs : List (Specification α)} :
    parse text = .ok specs ↔ (parts text).mapM parsePart = .ok specs ∧ specs ≠ [] := by
  have hread : parse text = (parts text).mapM parsePart >>= fun specs : List (Specification α) =>
      if specs.isEmpty then
        throw (.invalid ("empty selector specification " ++ Text.quoted text))
      else return specs := rfl
  rw [hread, bind_eq_ok_iff]
  constructor
  · intro h
    obtain ⟨read, hparts, h⟩ := h
    cases read with
    | nil => cases h
    | cons s rest =>
      cases h
      exact ⟨hparts, List.cons_ne_nil s rest⟩
  · intro h
    obtain ⟨hparts, hne⟩ := h
    have hsome : specs.isEmpty = false := by simp [hne]
    refine ⟨specs, hparts, ?_⟩
    rw [hsome]
    rfl

theorem parse_eq (s : String) :
    (parse s : Except ConfigError (List (Specification Float))) = do
      let specs ← readParts (s.toList.splitOn ';')
      if specs.isEmpty then
        throw (.invalid ("empty selector specification " ++ Text.quoted s))
      return specs := by
  unfold parse parts
  rw [splitAt_eq_splitOn]
  rfl

theorem parse_of_readParts {s : String} {specs : List (Specification Float)} (hne : specs ≠ [])
    (h : readParts (s.toList.splitOn ';') = .ok specs) : parse s = .ok specs := by
  have hsome : specs.isEmpty = false := by simp [hne]
  rw [parse_eq, h, ok_bind, hsome]
  rfl

/-! ## Selectors -/

/-- What is built for an entry: a selector with one point, so that its bonus is its weight. -/
structure Builds {X : Type} (r : Registry X) (props : Properties) (spec : Specification Float)
    (c : Selector (Generator X Float) Float) : Prop where
  name : c.name = spec.key
  bonus : c.bonus = spec.bonus
  weight : c.weight = spec.bonus
  generator : r.buildGenerator props spec.key = .ok c.generator

theorem exists_buildSelectors {X : Type} {r : Registry X} {props : Properties} {s : String}
    {specs : List (Specification Float)} (hparse : parse s = .ok specs)
    (hbuild : ∀ spec ∈ specs, ∃ g : Generator X Float, r.buildGenerator props spec.key = .ok g) :
    ∃ selectors, r.buildSelectors props s = .ok selectors ∧
      List.Forall₂ (Builds r props) specs selectors := by
  obtain ⟨selectors, hselectors⟩ := exists_mapM_eq_ok
    (f := fun spec : Specification Float => do
      return Selector.of spec.key (← r.buildGenerator props spec.key) spec.bonus)
    fun spec hspec => (hbuild spec hspec).elim fun g hg => ⟨_, by rw [hg]; rfl⟩
  refine ⟨selectors, ?_, (forall₂_of_mapM_eq_ok hselectors).imp fun spec c hc => ?_⟩
  · unfold Registry.buildSelectors Registry.buildAll
    rw [hparse]
    exact hselectors
  · obtain ⟨g, hg, hc⟩ := bind_eq_ok_iff.1 hc
    cases hc
    exact ⟨rfl, rfl, Signs.mul_one spec.bonus, hg⟩

/-- A text that writes at least one entry is read as these entries in their order, and a registry
that has their generators builds a selector for each of them. Of several entries with a bonus that
cannot be read or is negative, the first one is the error. -/
theorem text_names_selectors {X : Type} (r : Registry X) (props : Properties) :
    (∀ (specs : List (Specification Float)) (s : String), specs ≠ [] → Writes specs s.toList →
      parse s = .ok specs ∧
      ((∀ spec ∈ specs, ∃ g : Generator X Float, r.buildGenerator props spec.key = .ok g) →
        ∃ selectors, r.buildSelectors props s = .ok selectors ∧
          List.Forall₂ (Builds r props) specs selectors)) ∧
    ∀ (specs : List (Specification Float)) (start rest : List Char) (error : ConfigError)
      (s : String), Begins specs start → Fails error rest → s.toList = start ++ rest →
      (parse s : Except ConfigError (List (Specification Float))) = .error error ∧
      (r.buildSelectors props s :
        Except SearchError (List (Selector (Generator X Float) Float))) =
          .error (.ofConfig error) := by
  refine ⟨fun specs s hne h => ?_, fun specs start rest error s hstart hrest hs => ?_⟩
  · have hparse := parse_of_readParts hne h.read
    exact ⟨hparse, exists_buildSelectors hparse⟩
  · have hparse : (parse s : Except ConfigError (List (Specification Float))) = .error error := by
      rw [parse_eq, hs, hstart.read, hrest.read]
      rfl
    refine ⟨hparse, ?_⟩
    unfold Registry.buildSelectors Registry.buildAll
    rw [hparse]
    rfl

/-- Duplicates, blanks and blank parts, and a bad bonus before another one. -/
theorem text_names_selectors_crowded :
    (parse " change @ 1e0\t;;swap@.5;swap ;lazy_change@inf;" =
        .ok [⟨"change", (1 : Float)⟩, ⟨"swap", 0.5⟩, ⟨"swap", 1⟩, ⟨"lazy_change", 1 / 0⟩] ∧
      ∃ selectors, (Registry.builtin : Registry Empty).buildSelectors .empty
          " change @ 1e0\t;;swap@.5;swap ;lazy_change@inf;" = .ok selectors ∧
        List.Forall₂ (Builds .builtin .empty)
          [⟨"change", 1⟩, ⟨"swap", 0.5⟩, ⟨"swap", 1⟩, ⟨"lazy_change", 1 / 0⟩] selectors) ∧
    (parse "change;swap @ é@1;other@-1" : Except ConfigError (List (Specification Float))) =
      .error (.malformed "swap" " é@1" "a selector bonus") := by
  have blanks {cs : List Char} (h : cs.all isBlank = true) : Blank cs := List.all_eq_true.1 h
  have change : Keyed "change" := by constructor <;> decide
  have swap : Keyed "swap" := by constructor <;> decide
  have lazyChange : Keyed "lazy_change" := by constructor <;> decide
  have zero : Blank [] := nofun
  have one : Blank [' '] := blanks rfl
  have tab : Blank ['\t'] := blanks rfl
  have whole : Scalar.parse? "1e0" = some (1 : Float) := by decide +kernel
  have half : Scalar.parse? ".5" = some (0.5 : Float) := by decide +kernel
  have endless : Scalar.parse? "inf" = some (1 / 0 : Float) := by decide +kernel
  have first := Says.bonus change whole (by decide +kernel) one one one tab
  have second := Says.bonus swap half (by decide +kernel) zero zero zero zero
  have third := Says.key swap (by decide) zero one
  have fourth := Says.bonus lazyChange endless (by decide +kernel) zero zero zero zero
  have parts := Writes.parts
    (.part first (.part (.blank zero) (.part second (.part third (.part fourth .nil)))))
    (.blank zero)
  have start := Begins.part (.key change (by decide) zero zero) .nil
  have unread : (Scalar.parse? (String.ofList (trimList
      (" é@1;other@-1".toList.takeWhile (· ≠ ';')))) : Option Float) = none := by decide +kernel
  have value : String.ofList ((" é@1;other@-1".toList.takeWhile (· ≠ ';')).rdropWhile isBlank) =
      " é@1" := by decide +kernel
  have bad := Fails.malformed swap zero one unread
  rw [value] at bad
  obtain ⟨hread, hfail⟩ := text_names_selectors (Registry.builtin : Registry Empty) .empty
  obtain ⟨hparse, hbuild⟩ := hread _ " change @ 1e0\t;;swap@.5;swap ;lazy_change@inf;"
    (by simp) (Eq.subst (by decide +kernel) parts)
  refine ⟨⟨hparse, hbuild ?_⟩, ?_⟩
  · simp only [Option.toList, List.cons_append, List.nil_append, List.append_nil,
      List.forall_mem_cons]
    exact ⟨⟨_, rfl⟩, ⟨_, rfl⟩, ⟨_, rfl⟩, ⟨_, rfl⟩, nofun⟩
  · exact (hfail _ _ _ _ _ start bad (by decide +kernel)).1

end LocalSearch.Specification
