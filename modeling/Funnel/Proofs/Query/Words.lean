import Funnel.Proofs.Query.Splits
import Funnel.Query.Placeholder

/-!
# Words and parentheses of a text

A word is a longest run of letters, digits and underscores. Two texts with a separator between them
have the words of both and no others, so a keyword is absent from a query when it is absent from its
fragments. A text is balanced when each of its parentheses is closed in it.
-/

set_option autoImplicit false

namespace Funnel.Fragment

open Placeholder

def finished (current : List Char) : List (List Char) :=
  if current = [] then [] else [current.reverse]

def wordsFrom (current : List Char) : List Char → List (List Char)
  | [] => finished current
  | c :: cs =>
    if isNameChar c then wordsFrom (c :: current) cs else finished current ++ wordsFrom [] cs

def words (s : String) : List (List Char) := wordsFrom [] s.toList

theorem wordsFrom_append_cons {c : Char} (hc : isNameChar c = false) (current a b : List Char) :
    wordsFrom current (a ++ c :: b) = wordsFrom current a ++ wordsFrom [] b := by
  induction a generalizing current with
  | nil => simp [wordsFrom, hc]
  | cons x a ih =>
    rw [List.cons_append, wordsFrom, wordsFrom]
    split
    · exact ih _
    · rw [ih, List.append_assoc]

/-- A text that starts with a character of no word. -/
def StartsApart (s : String) : Prop := ∃ c cs, s.toList = c :: cs ∧ isNameChar c = false

/-- A text that ends with a character of no word and no placeholder. -/
def EndsApart (s : String) : Prop :=
  ∃ cs c, s.toList = cs ++ [c] ∧ isNameChar c = false ∧ c ≠ '$'

theorem words_append_of_startsApart (a : String) {b : String} (h : StartsApart b) :
    words (a ++ b) = words a ++ words b := by
  obtain ⟨c, cs, hb, hc⟩ := h
  have hfirst : wordsFrom [] (c :: cs) = wordsFrom [] cs := by simp [wordsFrom, hc, finished]
  simp only [words, String.toList_append, hb]
  rw [wordsFrom_append_cons hc, hfirst]

theorem words_append_of_endsApart {a : String} (h : EndsApart a) (b : String) :
    words (a ++ b) = words a ++ words b := by
  obtain ⟨cs, c, ha, hc, -⟩ := h
  have hlast : wordsFrom [] (cs ++ [c]) = wordsFrom [] cs := by
    rw [wordsFrom_append_cons hc]
    simp [wordsFrom, finished]
  simp only [words, String.toList_append, ha]
  rw [hlast, List.append_assoc, List.singleton_append, wordsFrom_append_cons hc]

theorem startsApart_of_mem_separators {s : String} (h : s ∈ separators) : StartsApart s := by
  simp only [separators, List.mem_cons, List.not_mem_nil, or_false] at h
  rcases h with rfl | rfl | rfl | rfl | rfl | rfl | rfl | rfl | rfl <;>
    exact ⟨_, _, String.toList_ofList, by decide⟩

theorem endsApart_of_mem_separators {s : String} (h : s ∈ separators) : EndsApart s := by
  simp only [separators, List.mem_cons, List.not_mem_nil, or_false] at h
  rcases h with rfl | rfl | rfl | rfl | rfl | rfl | rfl | rfl | rfl
  · exact ⟨[], ' ', rfl, by decide⟩
  · exact ⟨",".toList, ' ', rfl, by decide⟩
  · exact ⟨" AND".toList, ' ', rfl, by decide⟩
  · exact ⟨" UNION ALL".toList, ' ', rfl, by decide⟩
  · exact ⟨" JOIN".toList, ' ', rfl, by decide⟩
  · exact ⟨" ON".toList, ' ', rfl, by decide⟩
  · exact ⟨" AS ".toList, '(', rfl, by decide⟩
  · exact ⟨" IN ".toList, '(', rfl, by decide⟩
  · exact ⟨[], ')', rfl, by decide⟩

/-- The places where a word, given in upper case, stands in a text in whatever case. -/
def occurrences (word s : String) : List (List Char) :=
  (words s).filter fun w => w.map Char.toUpper = word.toList

/-- A text that a word does not stand in. -/
def Lacks (word s : String) : Prop := occurrences word s = []

instance (word s : String) : Decidable (Lacks word s) :=
  inferInstanceAs (Decidable (occurrences word s = []))

theorem cuts_occurrences {word : String} (h : ∀ s ∈ separators, Lacks word s) :
    Cuts (occurrences word) where
  cut := by
    intro s hs a b
    have hlacks : occurrences word s = [] := h s hs
    unfold occurrences at hlacks ⊢
    rw [words_append_of_endsApart, words_append_of_startsApart a (startsApart_of_mem_separators hs)]
    · simp [hlacks]
    · obtain ⟨cs, c, hcs, hc⟩ := endsApart_of_mem_separators hs
      exact ⟨a.toList ++ cs, c, by simp [hcs], hc⟩
  empty := rfl

theorem splits_or : Splits (occurrences "OR") where
  toCuts := cuts_occurrences (by decide)
  clauseWord := by decide

theorem cuts_select : Cuts (occurrences "SELECT") := cuts_occurrences (by decide)

/-- How many parentheses are open after a text that starts within some; none if one is closed that
was never opened. -/
def depth? : (opened : Nat) → List Char → Option Nat
  | n, [] => some n
  | n, c :: cs =>
    if c = '(' then depth? (n + 1) cs
    else if c = ')' then if n = 0 then none else depth? (n - 1) cs
    else depth? n cs

/-- Every parenthesis of the text is closed in it. -/
def Balanced (s : String) : Prop := depth? 0 s.toList = some 0

theorem depth?_append (n : Nat) (a b : List Char) :
    depth? n (a ++ b) = (depth? n a).bind fun m => depth? m b := by
  induction a generalizing n with
  | nil => rfl
  | cons c a ih =>
    simp only [List.cons_append, depth?]
    split
    · exact ih _
    · split
      · split
        · rfl
        · exact ih _
      · exact ih n

theorem depth?_add {n m : Nat} {cs : List Char} (h : depth? n cs = some m) (k : Nat) :
    depth? (n + k) cs = some (m + k) := by
  induction cs generalizing n with
  | nil =>
    simp only [depth?, Option.some.injEq] at h
    rw [← h]
    rfl
  | cons c cs ih =>
    rw [depth?] at h ⊢
    by_cases hopen : c = '('
    · rw [if_pos hopen] at h ⊢
      have := ih h
      rwa [Nat.add_right_comm] at this
    · rw [if_neg hopen] at h ⊢
      by_cases hclose : c = ')'
      · rw [if_pos hclose] at h ⊢
        by_cases hn : n = 0
        · simp [hn] at h
        · rw [if_neg hn] at h
          rw [if_neg (by omega), Nat.sub_add_comm (by omega)]
          exact ih h
      · rw [if_neg hclose] at h ⊢
        exact ih h

theorem depth?_of_balanced {s : String} (h : Balanced s) (k : Nat) :
    depth? k s.toList = some k := by
  have := depth?_add h k
  rwa [Nat.zero_add] at this

theorem balanced_append {a b : String} (ha : Balanced a) (hb : Balanced b) :
    Balanced (a ++ b) := by
  have hfirst : depth? 0 a.toList = some 0 := ha
  rw [Balanced, String.toList_append, depth?_append, hfirst]
  exact hb

theorem balanced_insert {before after x : String} (h : Balanced (before ++ after))
    (hx : Balanced x) : Balanced (before ++ x ++ after) := by
  rw [Balanced, String.toList_append, depth?_append] at h
  rw [Balanced, String.toList_append, String.toList_append, depth?_append, depth?_append]
  cases hd : depth? 0 before.toList with
  | none => simp [hd] at h
  | some k =>
    rw [hd] at h
    simp only [Option.bind_some] at h ⊢
    rw [depth?_of_balanced hx k]
    exact h

theorem balanced_of_no_parentheses {s : String} (h : ∀ c ∈ s.toList, c ≠ '(' ∧ c ≠ ')') :
    Balanced s := by
  unfold Balanced
  generalize s.toList = cs at h
  induction cs with
  | nil => rfl
  | cons c cs ih =>
    have hc := h c List.mem_cons_self
    rw [depth?, if_neg hc.1, if_neg hc.2]
    exact ih fun x hx => h x (List.mem_cons_of_mem c hx)

theorem balanced_intercalate {s : String} (hs : Balanced s) {xs : List String}
    (h : ∀ x ∈ xs, Balanced x) : Balanced (s.intercalate xs) := by
  induction xs with
  | nil => rfl
  | cons x xs ih =>
    have hx := h x List.mem_cons_self
    have hxs := ih fun y hy => h y (List.mem_cons_of_mem x hy)
    cases xs with
    | nil => simpa using hx
    | cons y ys =>
      rw [String.intercalate_cons_cons]
      exact balanced_append (balanced_append hx hs) hxs

end Funnel.Fragment
