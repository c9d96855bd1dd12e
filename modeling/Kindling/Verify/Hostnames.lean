import Kindling.Preview.Naming

/-!
# Generated host names

A name is made of slugs joined by hyphens and put before the base domain. Slugs are cut to forty
characters each before they are joined, and they may hold hyphens of their own.
-/

namespace Kindling

@[mk_iff] structure StartsSlug (s : List Char) : Prop where
  nonempty : s ≠ []
  chars : s.all isSlugChar
  head : s.head? ≠ some '-'

@[mk_iff] structure IsSlug (s : List Char) : Prop extends StartsSlug s where
  last : s.getLast? ≠ some '-'

/-- A DNS label. -/
def IsLabel (s : List Char) : Prop := IsSlug s ∧ s.length ≤ 63

def labels (host : String) : List (List Char) := host.toList.splitOn '.'

def ValidHost (host : String) : Prop := ∀ l ∈ labels host, IsLabel l

/-- Hexadecimal digits, in either case. -/
def isHash (sha : String) : Bool := sha.toList.all "0123456789abcdefABCDEF".toList.contains

/-- The start of an immutable preview name. -/
def commitPart (sha : String) : String :=
  let sh := shortSha (lower (trimSpace sha))
  if sh == "" then "unknown" else sh

instance : Decidable (StartsSlug s) := decidable_of_iff' _ (startsSlug_iff s)

instance : Decidable (IsSlug s) := decidable_of_iff' _ (isSlug_iff s)

instance : Decidable (IsLabel s) := inferInstanceAs (Decidable (_ ∧ _))

instance : Decidable (ValidHost host) := inferInstanceAs (Decidable (∀ l ∈ labels host, IsLabel l))

theorem replaceNonSlug_chars : (replaceNonSlug s).all isSlugChar := by
  have hhyphen : isSlugChar '-' := by decide
  fun_induction replaceNonSlug s <;> simp_all

theorem all_of_subset {s t : List Char} (h : s ⊆ t) (ht : t.all f) : s.all f :=
  List.all_eq_true.mpr fun c hc => List.all_eq_true.mp ht c (h hc)

theorem IsSlug.trimRight (hchars : s.all isSlugChar) (hs : s ≠ [])
    (hhead : s.head? ≠ some '-') : IsSlug (trimRightChar '-' s) := by
  have hpre : trimRightChar '-' s <+: s := List.rdropWhile_prefix _ s
  have hne : trimRightChar '-' s ≠ [] := by
    intro h
    have hc := List.rdropWhile_eq_nil_iff.mp h _ (List.head_mem hs)
    simp_all [List.head?_eq_some_head hs]
  refine ⟨⟨hne, all_of_subset hpre.subset hchars, ?_⟩, ?_⟩
  · obtain ⟨t, ht⟩ := hpre
    rwa [← ht, List.head?_append_of_ne_nil _ hne] at hhead
  · intro h
    have hlast := List.rdropWhile_last_not (· == '-') s hne
    exact hlast (beq_iff_eq.mpr (List.getLast_of_mem_getLast? h))

theorem slugProjectName_isSlug : IsSlug (slugProjectName name).toList := by
  unfold slugProjectName
  extract_lets s
  by_cases hnil : s = []
  · rw [if_pos (beq_iff_eq.mpr hnil)]
    decide
  have hs : IsSlug s := by
    have hne : (replaceNonSlug (lower (trimSpace name)).toList).dropWhile (· == '-') ≠ [] := by
      intro h
      exact hnil (by simp only [s, trimChar, h]; rfl)
    refine .trimRight (all_of_subset (List.dropWhile_sublist _).subset replaceNonSlug_chars) hne ?_
    rw [List.head?_eq_some_head hne]
    simpa using List.head_dropWhile_not (· == '-') hne
  rw [if_neg (mt beq_iff_eq.mp hnil)]
  split_ifs with hlen
  · rw [String.toList_ofList]
    refine .trimRight (all_of_subset (List.take_subset ..) hs.chars) ?_ ?_
    · simpa using hnil
    · rw [List.head?_take]
      exact hs.head
  · rwa [String.toList_ofList]

theorem commitPart_isSlug (hsha : isHash sha) : IsSlug (commitPart sha).toList := by
  have hmem : ∀ c ∈ (shortSha (lower (trimSpace sha))).toList, isSlugChar c ∧ c ≠ '-' := by
    intro c hc
    rw [shortSha, String.toList_ofList] at hc
    have hc := List.mem_of_mem_take hc
    rw [lower, String.toList_ofList] at hc
    obtain ⟨d, hd, rfl⟩ := List.mem_map.mp hc
    rw [trimSpace, String.toList_ofList] at hd
    have hhex := List.all_eq_true.mp hsha d ((List.dropWhile_sublist _).subset
      ((List.rdropWhile_prefix _ _).subset hd))
    have hall : "0123456789abcdefABCDEF".toList.all fun c =>
      isSlugChar (lowerChar c) && lowerChar c != '-' := by decide
    simpa using List.all_eq_true.mp hall d (List.contains_iff_mem.mp hhex)
  unfold commitPart
  extract_lets sh
  split_ifs with h
  · decide
  · refine ⟨⟨by simpa using h, List.all_eq_true.mpr fun c hc => (hmem c hc).1, fun h => ?_⟩,
      fun h => ?_⟩
    · exact (hmem _ (List.mem_of_mem_head? h)).2 rfl
    · exact (hmem _ (List.mem_of_mem_getLast? h)).2 rfl

theorem toDigits_chars : (Nat.toDigits 10 n).all isSlugChar := by
  refine List.all_eq_true.mpr fun c hc => ?_
  have hdigit := Nat.isDigit_of_mem_toDigits (by decide) le_rfl hc
  simp_all [Char.isDigit, isSlugChar, Char.le_def]

theorem toString_chars {n : Int} : (toString n).toList.all isSlugChar := by
  cases n with
  | ofNat n => simpa [Int.repr] using toDigits_chars
  | negSucc n =>
    have hhyphen : isSlugChar '-' := by decide
    simpa [Int.repr, hhyphen] using toDigits_chars

theorem StartsSlug.append (ha : StartsSlug a) (hb : b.all isSlugChar) : StartsSlug (a ++ b) where
  nonempty := List.append_ne_nil_of_left_ne_nil ha.nonempty b
  chars := by rw [List.all_append, ha.chars, hb, Bool.and_true]
  head := by
    rw [List.head?_append_of_ne_nil _ ha.nonempty]
    exact ha.head

theorem StartsSlug.join (ha : StartsSlug a) (hb : IsSlug b) : IsSlug (a ++ b) where
  toStartsSlug := ha.append hb.chars
  last := by
    rw [List.getLast?_append_of_ne_nil _ hb.nonempty]
    exact hb.last

theorem validHost_iff (hbase : ValidHost base) (hs : IsSlug s.toList) :
    ValidHost (s ++ "." ++ base) ↔ s.length ≤ 63 := by
  have hdot : '.' ∉ s.toList := fun h => absurd (List.all_eq_true.mp hs.chars _ h) (by decide)
  have hlabels : labels (s ++ "." ++ base) = s.toList :: labels base := by
    rw [labels, String.toList_append, String.toList_append, List.append_assoc, List.splitOn,
      show ".".toList ++ base.toList = '.' :: base.toList from rfl,
      List.splitOnP_append_cons _ _ rfl]
    exact congrArg (· ++ _) (List.splitOn_eq_singleton hdot)
  rw [ValidHost, hlabels, List.forall_mem_cons]
  exact ⟨fun h => h.1.2, fun h => ⟨⟨hs, h⟩, hbase⟩⟩

/-- The host names are valid exactly when the joined label is short enough. -/
theorem generated_hosts_valid_iff (hbase : ValidHost (hostnameBase base)) (hsha : isHash sha) :
    (ValidHost (productionServiceHostname svc proj base) ↔
      (slugServiceName svc).length + (slugProjectName proj).length ≤ 62) ∧
    (ValidHost (stableHostname n svc proj base) ↔ (toString n).length +
      (slugServiceName svc).length + (slugProjectName proj).length ≤ 58) ∧
    (ValidHost (immutableHostname sha k svc proj base) ↔ (commitPart sha).length +
      (toString k).length + (slugServiceName svc).length + (slugProjectName proj).length ≤ 58) := by
  have hne : ¬(hostnameBase base == "") = true := by
    intro h
    have hempty := hbase [] (by rw [beq_iff_eq.mp h]; decide)
    exact hempty.1.nonempty rfl
  have hsvc : IsSlug (slugServiceName svc).toList := slugProjectName_isSlug
  have hproj : IsSlug (slugProjectName proj).toList := slugProjectName_isSlug
  have hyphen : "-".toList.all isSlugChar := by decide
  have hlen : "-".length = 1 := rfl
  refine ⟨?_, ?_, ?_⟩
  · rw [productionServiceHostname, if_neg hne, validHost_iff hbase]
    · simp only [String.length_append]
      omega
    · simp only [String.toList_append]
      exact (hsvc.append hyphen).join hproj
  · have hpr : StartsSlug "pr-".toList := by decide
    have hprlen : "pr-".length = 3 := rfl
    rw [stableHostname, if_neg hne, validHost_iff hbase]
    · simp only [String.length_append]
      omega
    · simp only [String.toList_append]
      exact ((((hpr.append toString_chars).append hyphen).append
        hsvc.chars).append hyphen).join hproj
  · have hprlen : "-pr".length = 3 := rfl
    rw [immutableHostname, if_neg hne]
    change ValidHost (commitPart sha ++ _ ++ _ ++ _ ++ _ ++ _ ++ _ ++ _ ++ _) ↔ _
    rw [validHost_iff hbase]
    · simp only [String.length_append]
      omega
    · simp only [String.toList_append]
      exact (((((((commitPart_isSlug hsha).append (by decide)).append
        (toString_chars (n := k))).append hyphen).append
        hsvc.chars).append hyphen).join hproj)

theorem short_names_valid : ValidHost (hostnameBase "kindling.dev") ∧ isHash "0a1b2c3" ∧
    ValidHost (immutableHostname "0a1b2c3" 7 "api" "shop" "kindling.dev") :=
  ⟨by decide, by decide, (generated_hosts_valid_iff (n := 7) (by decide) (by decide)).2.2.mpr
    (by decide)⟩

/-- Two slugs of forty characters. -/
theorem long_names_overflow_label : ValidHost (hostnameBase "kindling.dev") ∧
    ¬ValidHost (productionServiceHostname "service-with-a-name-of-forty-characters1"
      "project-with-a-name-of-forty-characters1" "kindling.dev") := by
  decide +kernel

/-! ## Two names -/

/-- The first service's slug is the second's, a hyphen and the text by which the second project's
slug is longer. -/
def Clash (svc proj svc' proj' : String) : Prop :=
  ∃ x, (slugServiceName svc).toList = (slugServiceName svc').toList ++ '-' :: x ∧
    (slugProjectName proj').toList = x ++ '-' :: (slugProjectName proj).toList

theorem append_cons_eq_iff {s p t q : List α} : s ++ a :: p = t ++ a :: q ↔
    s = t ∧ p = q ∨ (∃ x, s = t ++ a :: x ∧ q = x ++ a :: p) ∨
      ∃ x, t = s ++ a :: x ∧ p = x ++ a :: q := by
  rw [List.append_eq_append_iff]
  constructor
  · rintro (⟨x, rfl, h⟩ | ⟨x, rfl, h⟩) <;> cases x <;> simp_all
  · rintro (⟨rfl, rfl⟩ | ⟨x, rfl, rfl⟩ | ⟨x, rfl, rfl⟩) <;> simp

theorem hyphen_not_mem_toDigits : '-' ∉ Nat.toDigits 10 n := fun h =>
  absurd (Nat.isDigit_of_mem_toDigits (by decide) le_rfl h) (by decide)

theorem toDigits_hyphen_inj (h : Nat.toDigits 10 n ++ '-' :: x = Nat.toDigits 10 m ++ '-' :: y) :
    n = m ∧ x = y := by
  have hcut := congrArg (cut ['-']) h
  rw [cut_append hyphen_not_mem_toDigits, cut_append hyphen_not_mem_toDigits] at hcut
  injection hcut with hpair
  injection hpair with hn hx
  have hnum := congrArg (Nat.ofDigitChars 10 · 0) hn
  simp only [Nat.ofDigitChars_toDigits (by decide : 1 < 10) (by decide)] at hnum
  exact ⟨hnum, hx⟩

theorem toDigits_append_ne : Nat.toDigits 10 n ++ x ≠ '-' :: y := by
  intro h
  have hmem : '-' ∈ Nat.toDigits 10 n := by
    cases hn : Nat.toDigits 10 n with
    | nil => exact absurd hn Nat.toDigits_ne_nil
    | cons c cs =>
      rw [hn] at h
      injection h with hc
      rw [hc]
      exact List.mem_cons_self
  exact hyphen_not_mem_toDigits hmem

theorem toString_hyphen_inj {n m : Int}
    (h : (toString n).toList ++ '-' :: x = (toString m).toList ++ '-' :: y) : n = m ∧ x = y := by
  cases n <;> cases m <;> simp [Int.repr] at h
  · obtain ⟨rfl, rfl⟩ := toDigits_hyphen_inj h
    exact ⟨rfl, rfl⟩
  · exact absurd h toDigits_append_ne
  · exact absurd h.symm toDigits_append_ne
  · obtain ⟨hn, rfl⟩ := toDigits_hyphen_inj h
    exact ⟨congrArg Int.negSucc (Nat.succ.inj hn), rfl⟩

theorem generated_hosts_differ_iff (hbase : hostnameBase base ≠ "") :
    ((slugServiceName svc, slugProjectName proj) ≠ (slugServiceName svc', slugProjectName proj') →
      (productionServiceHostname svc proj base ≠ productionServiceHostname svc' proj' base ↔
        ¬Clash svc proj svc' proj' ∧ ¬Clash svc' proj' svc proj)) ∧
    ((n, slugServiceName svc, slugProjectName proj) ≠
        (m, slugServiceName svc', slugProjectName proj') →
      (stableHostname n svc proj base ≠ stableHostname m svc' proj' base ↔
        (n = m → ¬Clash svc proj svc' proj' ∧ ¬Clash svc' proj' svc proj))) := by
  have hjoined : slugServiceName svc ++ "-" ++ slugProjectName proj =
      slugServiceName svc' ++ "-" ++ slugProjectName proj' ↔
      (slugServiceName svc, slugProjectName proj) = (slugServiceName svc', slugProjectName proj') ∨
        Clash svc proj svc' proj' ∨ Clash svc' proj' svc proj := by
    have := append_cons_eq_iff (a := '-') (s := (slugServiceName svc).toList)
      (p := (slugProjectName proj).toList) (t := (slugServiceName svc').toList)
      (q := (slugProjectName proj').toList)
    simpa [Clash, ← String.toList_inj] using this
  constructor
  · intro hne
    rw [productionServiceHostname, productionServiceHostname, if_neg (by simpa using hbase),
      if_neg (by simpa using hbase), Ne, String.append_left_inj, String.append_left_inj, hjoined]
    simp [hne]
  · intro hne
    have hstable : stableHostname n svc proj base = stableHostname m svc' proj' base ↔
        n = m ∧ slugServiceName svc ++ "-" ++ slugProjectName proj =
          slugServiceName svc' ++ "-" ++ slugProjectName proj' := by
      rw [stableHostname, stableHostname, if_neg (by simpa using hbase),
        if_neg (by simpa using hbase), String.append_left_inj, String.append_left_inj]
      simp only [← String.toList_inj, String.toList_append, List.append_assoc,
        List.append_right_inj, show "-".toList = ['-'] from rfl, List.singleton_append]
      refine ⟨toString_hyphen_inj, ?_⟩
      rintro ⟨rfl, h⟩
      rw [List.cons_append, h, List.cons_append]
    rw [Ne, hstable, hjoined]
    grind

theorem plain_names_differ : hostnameBase "kindling.dev" ≠ "" ∧
    productionServiceHostname "api" "shop" "kindling.dev" ≠
      productionServiceHostname "web" "shop" "kindling.dev" := by
  have hbase : hostnameBase "kindling.dev" ≠ "" := by decide
  have hclash {svc svc' : String} (hsvc : '-' ∉ (slugServiceName svc).toList) :
      ¬Clash svc "shop" svc' "shop" := by
    rintro ⟨x, hx, -⟩
    rw [hx] at hsvc
    exact hsvc (List.mem_append_right _ List.mem_cons_self)
  exact ⟨hbase, ((generated_hosts_differ_iff (n := 0) (m := 0) hbase).1 (by decide)).mpr
    ⟨hclash (by decide), hclash (by decide)⟩⟩

/-- The slugs `a-b` and `c`, and the slugs `a` and `b-c`. -/
theorem hyphens_make_names_equal :
    (slugServiceName "a-b", slugProjectName "c") ≠ (slugServiceName "a", slugProjectName "b-c") ∧
    productionServiceHostname "a-b" "c" "kindling.dev" =
      productionServiceHostname "a" "b-c" "kindling.dev" ∧
    stableHostname 7 "a-b" "c" "kindling.dev" = stableHostname 7 "a" "b-c" "kindling.dev" := by
  decide +kernel

end Kindling
