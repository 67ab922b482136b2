import Mathlib
import LocalSearch.Decimal.Reader
import LocalSearch.Text.Blank
/-!
# Characters of numbers

* `isNumeral`: the characters that a decimal text can have.
* `numeral_of_readDecimal?`: a text that is read as a number has no others.
-/

namespace LocalSearch.Text

/-- A digit, a letter, a sign or a point. -/
def isNumeral (c : Char) : Bool :=
  c.isAlphanum || c == '+' || c == '-' || c == '.'

/-- Only such characters. -/
def Numeral (cs : List Char) : Prop :=
  ∀ c ∈ cs, isNumeral c = true

theorem isNumeral_of_isDigit {c : Char} (h : c.isDigit = true) : isNumeral c = true := by
  simp [isNumeral, Char.isAlphanum, h]

theorem isNumeral_of_isAlpha {c : Char} (h : c.isAlpha = true) : isNumeral c = true := by
  simp [isNumeral, Char.isAlphanum, h]

theorem isBlank_of_isNumeral {c : Char} (h : isNumeral c = true) : isBlank c = false := by
  have hcode : isNumeral c = true ↔ 65 ≤ c.toNat ∧ c.toNat ≤ 90 ∨ 97 ≤ c.toNat ∧ c.toNat ≤ 122 ∨
      48 ≤ c.toNat ∧ c.toNat ≤ 57 ∨ c.toNat = 43 ∨ c.toNat = 45 ∨ c.toNat = 46 := by
    simp [isNumeral, Char.isAlphanum, Char.isAlpha, Char.isUpper, Char.isLower, Char.isDigit,
      Char.ext_iff, UInt32.le_iff_toNat_le, ← UInt32.toNat_inj, or_assoc]
  rw [hcode] at h
  simp only [isBlank, Bool.or_eq_false_iff, Bool.and_eq_false_iff, decide_eq_false_iff_not]
  omega

theorem numeral_of_readDigits? {cs : List Char} {n : Nat} (h : readDigits? cs = some n) :
    Numeral cs := by
  unfold readDigits? at h
  split at h
  · cases h
  · rename_i hdigits
    simp only [Bool.or_eq_true, Bool.not_eq_true', not_or, Bool.not_eq_false,
      List.all_eq_true] at hdigits
    exact fun c hc => isNumeral_of_isDigit (hdigits.2 c hc)

theorem numeral_of_splitSign {cs : List Char} (h : Numeral (splitSign cs).2) : Numeral cs := by
  unfold splitSign at h
  split at h
  · exact List.forall_mem_cons.2 ⟨rfl, h⟩
  · exact List.forall_mem_cons.2 ⟨rfl, h⟩
  · exact h

theorem numeral_of_readExponent? {cs : List Char} {e : Int} (h : readExponent? cs = some e) :
    Numeral cs := by
  unfold readExponent? at h
  split at h
  · nofun
  · split at h
    · rename_i hmark
      simp only [Option.map_eq_some_iff] at h
      obtain ⟨magnitude, hmagnitude, -⟩ := h
      obtain ⟨n, hn, -⟩ := Option.bind_eq_some_iff.1 hmagnitude
      refine List.forall_mem_cons.2 ⟨?_, numeral_of_splitSign (numeral_of_readDigits? hn)⟩
      rcases hmark with rfl | rfl
      · rfl
      · rfl
    · cases h

/-- Digits may stand before what is read next. -/
theorem numeral_of_dropWhile_isDigit {cs : List Char} (h : Numeral (cs.dropWhile Char.isDigit)) :
    Numeral cs := by
  rw [← List.takeWhile_append_dropWhile (p := Char.isDigit) (l := cs)]
  exact List.forall_mem_append.2
    ⟨fun c hc => isNumeral_of_isDigit (List.mem_takeWhile_imp hc), h⟩

theorem numeral_of_readUnsigned? {cs : List Char} {x : Float} (h : readUnsigned? cs = some x) :
    Numeral cs := by
  refine numeral_of_dropWhile_isDigit ?_
  unfold readUnsigned? at h
  dsimp only at h
  split at h
  · rename_i rest hpoint
    rw [hpoint]
    split at h
    · cases h
    · obtain ⟨e, he, -⟩ := Option.map_eq_some_iff.1 h
      exact List.forall_mem_cons.2
        ⟨rfl, numeral_of_dropWhile_isDigit (numeral_of_readExponent? he)⟩
  · split at h
    · cases h
    · obtain ⟨e, he, -⟩ := Option.map_eq_some_iff.1 h
      exact numeral_of_readExponent? he

theorem isAlpha_of_isAlpha_toLower {c : Char} (h : c.toLower.isAlpha = true) :
    c.isAlpha = true := by
  by_cases hupper : c.isUpper = true
  · simp [Char.isAlpha, hupper]
  · have hlower : c.toLower = c :=
      dif_neg fun hrange => hupper (by simpa [Char.isUpper] using hrange)
    rwa [hlower] at h

/-- The names of infinity and of no number consist of letters. -/
theorem numeral_of_toLower {cs : List Char} {word : String}
    (h : String.ofList (cs.map Char.toLower) = word)
    (hword : word.toList.all Char.isAlpha = true) : Numeral cs := by
  intro c hc
  refine isNumeral_of_isAlpha (isAlpha_of_isAlpha_toLower (List.all_eq_true.1 hword _ ?_))
  rw [← h, String.toList_ofList]
  exact List.mem_map_of_mem hc

/-- A number is written with digits, letters, signs and points. -/
theorem numeral_of_readDecimal? {s : String} {x : Float} (h : readDecimal? s = some x) :
    Numeral s.toList := by
  unfold readDecimal? at h
  refine numeral_of_splitSign ?_
  dsimp only at h
  obtain ⟨magnitude, hmagnitude, -⟩ := Option.map_eq_some_iff.1 h
  split at hmagnitude
  · rename_i hname
    rcases hname with hname | hname
    · exact numeral_of_toLower hname (by decide)
    · exact numeral_of_toLower hname (by decide)
  · split at hmagnitude
    · rename_i hname
      exact numeral_of_toLower hname (by decide)
    · exact numeral_of_readUnsigned? hmagnitude

end LocalSearch.Text
