import Kindling.Lib.Like
import Mathlib.Data.List.Sort

/-!
# The keys of the certificate storage

The edge proxy keeps certificates in a table (`internal/edgeproxy/storage.go`), under keys that are
paths. `List` builds a pattern from the prefix it is given, in which the prefix is not escaped, and
does not look at `recursive`.
-/

namespace Kindling.EdgeProxy

/-- The primary keys of `certmagic_data`. -/
structure PostgreSQLStorage where
  keys : List String
  nodup : keys.Nodup

/-- `CertMagicList` -/
def PostgreSQLStorage.certMagicList (s : PostgreSQLStorage) (pattern : String) : List String :=
  (s.keys.filter fun key => like key.toList pattern.toList).insertionSort (· ≤ ·)

def PostgreSQLStorage.list (s : PostgreSQLStorage) (pre : String) (_recursive : Bool) : List String :=
  s.certMagicList (pre ++ "%")

/-- What `certmagic` asks for: the keys that start with the prefix, or those directly below it. -/
def Asked (pre : String) (recursive : Bool) (key : String) : Prop :=
  ∃ rest, key.toList = pre.toList ++ rest ∧
    (recursive = false → ∃ name, '/' ∉ name ∧ (rest = name ∨ rest = '/' :: name))

/-- The keys that are asked for are listed. -/
def ListsAsked (s : PostgreSQLStorage) (pre : String) (recursive : Bool) : Prop :=
  ∀ key, key ∈ s.list pre recursive ↔ key ∈ s.keys ∧ Asked pre recursive key

theorem mem_list {s : PostgreSQLStorage} :
    key ∈ s.list pre recursive ↔ key ∈ s.keys ∧ like key.toList (pre.toList ++ ['%']) = true := by
  simp [PostgreSQLStorage.list, PostgreSQLStorage.certMagicList]

/-- A prefix with a special character also lists other keys, and the keys below those asked for are
always listed. -/
theorem lists_asked_iff (pre : String) (recursive : Bool) :
    (∀ s : PostgreSQLStorage, ListsAsked s pre recursive) ↔
      recursive = true ∧ ∀ c ∈ pre.toList, LikeToken.Plain c := by
  constructor
  · intro h
    have hone (key : String) : like key.toList (pre.toList ++ ['%']) = true → Asked pre recursive key := by
      intro hlike
      exact ((h ⟨[key], List.nodup_singleton key⟩ key).mp (mem_list.mpr ⟨by simp, hlike⟩)).2
    have hplain : ∀ c ∈ pre.toList, LikeToken.Plain c := by
      obtain ⟨rest, hrest, -⟩ := hone (String.ofList
        (LikeToken.sample (likeTokens (pre.toList ++ ['%'])))) (by
          rw [String.toList_ofList, like, LikeToken.matchAll_sample])
      exact LikeToken.plain_of_prefix_sample ⟨rest, by rw [← hrest, String.toList_ofList]⟩
    refine ⟨?_, hplain⟩
    by_contra hrec
    obtain ⟨rest, hrest, hdirect⟩ := hone (pre ++ "a/b") ((LikeToken.like_append_percent hplain).mpr
      ⟨_, String.toList_append.symm⟩)
    rw [String.toList_append, List.append_cancel_left_eq] at hrest
    subst hrest
    obtain ⟨name, hname, rfl | hslash⟩ := hdirect (Bool.eq_false_iff.mpr hrec)
    · exact hname (by decide)
    · cases hslash
  · rintro ⟨rfl, hplain⟩ s key
    rw [mem_list, LikeToken.like_append_percent hplain]
    exact and_congr_right fun _ => exists_congr fun _ =>
      ⟨fun h => ⟨h.symm, by simp⟩, fun h => h.1.symm⟩

/-- The key of a wildcard certificate, as `certmagic` spells it, and that of another domain. -/
def wildcardKeys : PostgreSQLStorage where
  keys := ["acme/wildcard_.example.com.crt", "acme/wildcards.example.com.crt"]
  nodup := by decide

theorem wildcardKeys_confused :
    "acme/wildcards.example.com.crt" ∈ wildcardKeys.list "acme/wildcard_" true ∧
      ¬Asked "acme/wildcard_" true "acme/wildcards.example.com.crt" := by
  refine ⟨mem_list.mpr ⟨by simp [wildcardKeys], by decide +kernel⟩, ?_⟩
  rintro ⟨rest, hrest, -⟩
  cases hrest

end Kindling.EdgeProxy
