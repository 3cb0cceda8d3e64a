import Mathlib.Data.List.DropRight
import Gateway.Version

/-!
# Versions are read back

The text of a version has no white space, no letter `v`, no hyphen and no plus in it, so what stands
around it does not reach into it: what counts of a version with letters before it, a build suffix
behind it and white space on both sides is the text itself, and behind it at most further components
(`Version.core_decorated`). Splitting at the points gives the digits of the three components, and
digits are read as the number that they write (`Version.component?_toDigits`). So reading undoes
writing (`Version.parse_decorated`).
-/

namespace Gateway

/-! ### White space at the ends -/

namespace Text

variable {p : Char → Bool} {cs ds : List Char}

/-- Characters at the end are not dropped beyond one that stays. -/
theorem rdropWhile_append (h : ∀ c ∈ cs, p c = false) :
    (cs ++ ds).rdropWhile p = cs ++ ds.rdropWhile p := by
  induction ds using List.reverseRecOn with
  | nil =>
    rw [List.append_nil, List.rdropWhile_nil, List.append_nil, List.rdropWhile_eq_self_iff]
    intro hne
    simpa using h _ (List.getLast_mem hne)
  | append_singleton ds d ih =>
    rw [← List.append_assoc, List.rdropWhile_concat, List.rdropWhile_concat]
    split
    · exact ih
    · rw [List.append_assoc]

/-- Of text between characters of a class, all is kept up to the last part of it that has none of
them, and of what stands behind it a part from the front. -/
theorem strip_append (ds : List Char) {lead trail : List Char} (hlead : ∀ c ∈ lead, p c = true)
    (htrail : ∀ c ∈ trail, p c = true) (hne : cs ≠ []) (h : ∀ c ∈ cs, p c = false) :
    ∃ kept, kept <+: ds ∧ strip p (lead ++ cs ++ ds ++ trail) = cs ++ kept := by
  refine ⟨(ds ++ trail).rdropWhile p, ?_, ?_⟩
  · have htail : (ds ++ trail).rdropWhile p = ds.rdropWhile p := by
      unfold List.rdropWhile
      rw [List.reverse_append, List.dropWhile_append_of_pos (by simpa using htrail)]
    rw [htail]
    exact List.rdropWhile_prefix p ds
  · obtain ⟨c, cs', rfl⟩ := List.exists_cons_of_ne_nil hne
    have hfront : (lead ++ (c :: cs') ++ ds ++ trail).dropWhile p = c :: cs' ++ (ds ++ trail) := by
      rw [List.append_assoc, List.append_assoc, List.dropWhile_append_of_pos hlead,
        List.cons_append, List.dropWhile_cons_of_neg (by simp [h c List.mem_cons_self])]
    unfold strip
    rw [hfront]
    exact rdropWhile_append h

/-- Digits and points are no white space. -/
theorem isBlank_of_isDigit_or_point {c : Char} (h : c.isDigit = true ∨ c = '.') :
    isBlank c = false := by
  have hrange : 46 ≤ c.toNat ∧ c.toNat ≤ 57 := by
    rcases h with h | rfl
    · simp only [Char.isDigit, Bool.and_eq_true, decide_eq_true_eq] at h
      exact ⟨Nat.le_trans (by decide) (UInt32.le_iff_toNat_le.1 h.1), UInt32.le_iff_toNat_le.1 h.2⟩
    · decide
  simp only [isBlank, Bool.or_eq_false_iff, Bool.and_eq_false_iff, decide_eq_false_iff_not,
    beq_eq_false_iff_ne]
  omega

end Text

namespace Version

variable {v : Version} {n : Nat} {digits rest : List Char}

/-! ### Components -/

/-- The digits of a number are read as this number. -/
theorem component?_toDigits (h : n < bound) : component? (Nat.toDigits 10 n) = some n := by
  have hdigits : (Nat.toDigits 10 n).all Char.isDigit = true :=
    List.all_eq_true.2 fun _ hc => Nat.isDigit_of_mem_toDigits (by decide) (by decide) hc
  have hvalue : (Nat.toDigits 10 n).foldl (fun n c => 10 * n + (c.toNat - 48)) 0 = n := by
    have hfold := Nat.ofDigitChars_ten_toDigits (n := n)
    rw [Nat.ofDigitChars_eq_foldl] at hfold
    exact hfold
  unfold component?
  rw [if_pos hdigits]
  simp only [hvalue]
  exact if_pos h

/-- Digits end at the next point. -/
theorem splitPoint_append (hdigits : ∀ c ∈ digits, c.isDigit = true)
    (hrest : ∀ c ∈ rest.head?, c = '.') : splitPoint (digits ++ rest) = (digits, rest.drop 1) := by
  have hne : ∀ c ∈ digits, (c != '.') = true := by
    intro c hc
    have hdigit := hdigits c hc
    rw [bne_iff_ne]
    rintro rfl
    revert hdigit
    decide
  unfold splitPoint
  rw [List.takeWhile_append_of_pos hne, List.dropWhile_append_of_pos hne]
  cases rest with
  | nil => simp
  | cons c rest =>
    obtain rfl := hrest c rfl
    simp

/-! ### What counts of a version -/

theorem toList_text (v : Version) : v.text.toList = Nat.toDigits 10 v.major ++
    '.' :: (Nat.toDigits 10 v.minor ++ '.' :: Nat.toDigits 10 v.patch) := by
  simp [text]

/-- The text of a version holds digits and points only, so no decoration can be mistaken for part of
it. -/
theorem isDigit_or_point_of_mem_text {c : Char} (h : c ∈ v.text.toList) :
    c.isDigit = true ∨ c = '.' := by
  rw [toList_text] at h
  simp only [List.mem_append, List.mem_cons] at h
  have hdigit : ∀ {n}, c ∈ Nat.toDigits 10 n → c.isDigit = true :=
    Nat.isDigit_of_mem_toDigits (by decide) (by decide)
  rcases h with h | h | h | h | h
  · exact .inl (hdigit h)
  · exact .inr h
  · exact .inl (hdigit h)
  · exact .inr h
  · exact .inl (hdigit h)

theorem ne_of_mem_text {c d : Char} (h : c ∈ v.text.toList) (hd : ¬(d.isDigit = true ∨ d = '.')) :
    c ≠ d := by
  rintro rfl
  exact hd (isDigit_or_point_of_mem_text h)

/-- A version with letters `v` before it, a suffix behind it and white space around both. -/
def decorated (lead : String) (letters : Nat) (v : Version) (suffix trail : String) : String :=
  lead ++ String.ofList (List.replicate letters 'v') ++ v.text ++ suffix ++ trail

/-- What counts is the text of the version, and behind it at most further components. -/
theorem core_decorated (v : Version) (letters : Nat) {lead suffix trail : String}
    (hlead : Text.allBlank lead = true) (htrail : Text.allBlank trail = true)
    (hsuffix : ∀ c ∈ suffix.toList.head?, c = '-' ∨ c = '+' ∨ c = '.') :
    ∃ tail, (∀ c ∈ tail.head?, c = '.') ∧
      core (decorated lead letters v suffix trail) = v.text.toList ++ tail := by
  have hne : v.text.toList ≠ [] := by simp [toList_text]
  have hbody : ∀ c ∈ List.replicate letters 'v' ++ v.text.toList, Text.isBlank c = false := by
    intro c hc
    rcases List.mem_append.1 hc with hc | hc
    · rw [List.eq_of_mem_replicate hc]
      decide
    · exact Text.isBlank_of_isDigit_or_point (isDigit_or_point_of_mem_text hc)
  have hnonempty : List.replicate letters 'v' ++ v.text.toList ≠ [] :=
    List.append_ne_nil_of_right_ne_nil _ hne
  obtain ⟨kept, hkept, hstrip⟩ := Text.strip_append suffix.toList (List.all_eq_true.1 hlead)
    (List.all_eq_true.1 htrail) hnonempty hbody
  have hletters : (List.replicate letters 'v' ++ v.text.toList ++ kept).dropWhile (· == 'v') =
      v.text.toList ++ kept := by
    obtain ⟨c, cs, hcs⟩ := List.exists_cons_of_ne_nil hne
    have hc : c ≠ 'v' := ne_of_mem_text (hcs ▸ List.mem_cons_self) (by decide)
    rw [List.append_assoc, List.dropWhile_append_of_pos (by simp), hcs, List.cons_append,
      List.dropWhile_cons_of_neg (by simpa using hc)]
  have hclean : ∀ c ∈ v.text.toList, (!(c == '-' || c == '+')) = true := by
    intro c hc
    simpa using And.intro (ne_of_mem_text hc (d := '-') (by decide))
      (ne_of_mem_text hc (d := '+') (by decide))
  refine ⟨kept.takeWhile fun c => !(c == '-' || c == '+'), ?_, ?_⟩
  · -- what is kept of the suffix begins as the suffix does
    cases kept with
    | nil => simp
    | cons k kept =>
      obtain ⟨rest, hrest⟩ := hkept
      have hk := hsuffix k (by rw [← hrest]; rfl)
      rcases hk with rfl | rfl | rfl <;> simp
  · unfold core decorated
    simp only [String.toList_append, String.toList_ofList]
    rw [List.append_assoc lead.toList, hstrip, hletters, List.takeWhile_append_of_pos hclean]

/-! ### Reading -/

/-- A version is read back from its text, whatever number of letters `v` stands before it, whatever
suffix with a hyphen, a plus or a point at its front stands behind it, and whatever white space
around them. -/
theorem parse_decorated (hmajor : v.major < bound) (hminor : v.minor < bound)
    (hpatch : v.patch < bound) (letters : Nat) {lead suffix trail : String}
    (hlead : Text.allBlank lead = true) (htrail : Text.allBlank trail = true)
    (hsuffix : ∀ c ∈ suffix.toList.head?, c = '-' ∨ c = '+' ∨ c = '.') :
    parse (decorated lead letters v suffix trail) = .ok v := by
  obtain ⟨tail, htail, hcore⟩ := core_decorated v letters hlead htrail hsuffix
  have hdigits : ∀ {n}, ∀ c ∈ Nat.toDigits 10 n, c.isDigit = true := fun c =>
    Nat.isDigit_of_mem_toDigits (by decide) (by decide)
  have hfirst : splitPoint (v.text.toList ++ tail) = (Nat.toDigits 10 v.major,
      Nat.toDigits 10 v.minor ++ '.' :: (Nat.toDigits 10 v.patch ++ tail)) := by
    rw [toList_text]
    have hpoint : ∀ c ∈ ('.' :: (Nat.toDigits 10 v.minor ++
        '.' :: (Nat.toDigits 10 v.patch ++ tail))).head?, c = '.' := by simp
    simpa using splitPoint_append hdigits hpoint
  have hsecond : splitPoint (Nat.toDigits 10 v.minor ++ '.' :: (Nat.toDigits 10 v.patch ++ tail)) =
      (Nat.toDigits 10 v.minor, Nat.toDigits 10 v.patch ++ tail) :=
    splitPoint_append hdigits (by simp)
  have hthird : splitPoint (Nat.toDigits 10 v.patch ++ tail) =
      (Nat.toDigits 10 v.patch, tail.drop 1) := splitPoint_append hdigits htail
  have hsome : (v.text.toList ++ tail).isEmpty = false := by simp [toList_text]
  unfold parse
  simp only [hcore, hfirst, hsecond, hthird, component?_toDigits hmajor, component?_toDigits hminor,
    component?_toDigits hpatch, hsome]
  rfl

/-- A version at the bound of its components. -/
def greatestMajor : Version := ⟨4294967295, 0, 10⟩

/-- Two letters before it, further components and a build behind it. -/
theorem parse_decorated_of_greatestMajor :
    greatestMajor.major < bound ∧ greatestMajor.minor < bound ∧ greatestMajor.patch < bound ∧
      Text.allBlank "\u00a0 " = true ∧ Text.allBlank "\t\n" = true ∧
      (∀ c ∈ ".7-enterprise+build v 1".toList.head?, c = '-' ∨ c = '+' ∨ c = '.') ∧
      decorated "\u00a0 " 2 greatestMajor ".7-enterprise+build v 1" "\t\n" =
        "\u00a0 vv4294967295.0.10.7-enterprise+build v 1\t\n" ∧
      parse (decorated "\u00a0 " 2 greatestMajor ".7-enterprise+build v 1" "\t\n") =
        .ok greatestMajor := by
  have hbounds : greatestMajor.major < bound ∧ greatestMajor.minor < bound ∧
      greatestMajor.patch < bound := by decide
  have hblank : Text.allBlank "\u00a0 " = true ∧ Text.allBlank "\t\n" = true := by decide
  have hhead : ".7-enterprise+build v 1".toList.head? = some '.' := by decide
  have hpoint : ∀ c ∈ ".7-enterprise+build v 1".toList.head?, c = '-' ∨ c = '+' ∨ c = '.' := by
    rw [hhead]
    rintro c ⟨⟩
    exact .inr (.inr rfl)
  refine ⟨hbounds.1, hbounds.2.1, hbounds.2.2, hblank.1, hblank.2, hpoint, by decide, ?_⟩
  exact parse_decorated hbounds.1 hbounds.2.1 hbounds.2.2 2 hblank.1 hblank.2 hpoint

end Version

end Gateway
