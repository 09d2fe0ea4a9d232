import Mathlib.Data.List.TakeWhile

/-!
# Pieces of a list

The longest runs of a list that are free of separators. They can be read off one after the
other: skip the separators, take the run, go on behind the separator that ends it.

## Main definitions

* `Pieces.pieces` — the pieces of a list
* `Pieces.next` — the first piece, and the rest of the list

## Main results

* `Pieces.pieces_of_next` — the pieces are read off one after the other
* `Pieces.pieces_intercalate` — the pieces of a list that was joined from them
-/

set_option autoImplicit false

namespace Pieces

variable {α : Type*} {p : α → Bool} {a : α} {s rest piece : List α}

/-- The runs between the separators, without the empty ones. -/
def pieces (p : α → Bool) (s : List α) : List (List α) :=
  (s.splitOnP p).filter fun piece => !piece.isEmpty

/-- The first piece, and what follows the separator behind it. -/
def next (p : α → Bool) (s : List α) : Option (List α × List α) :=
  let s := s.dropWhile p
  if s = [] then none else some (s.takeWhile fun a => !p a, (s.dropWhile fun a => !p a).drop 1)

theorem pieces_nil : pieces p [] = [] := rfl

/-- A separator cuts the list. -/
theorem pieces_append_cons (ha : p a = true) :
    pieces p (s ++ a :: rest) = pieces p s ++ pieces p rest := by
  rw [pieces, List.splitOnP_append_cons s rest ha, List.filter_append]
  rfl

/-- A run without a separator is one piece. -/
theorem pieces_of_free (hne : s ≠ []) (hfree : ∀ a ∈ s, p a = false) : pieces p s = [s] := by
  rw [pieces, List.splitOnP_eq_singleton hfree, List.filter_cons_of_pos, List.filter_nil]
  rw [Bool.not_eq_true', List.isEmpty_eq_false_iff]
  exact hne

/-- Separators in front of a list do not count. -/
theorem pieces_dropWhile : pieces p (s.dropWhile p) = pieces p s := by
  induction s with
  | nil => rfl
  | cons a s ih =>
    rw [List.dropWhile_cons]
    split_ifs with ha
    · rw [ih, ← List.nil_append (a :: s), pieces_append_cons ha, pieces_nil, List.nil_append]
    · rfl

/-- Where no piece can be read, there is none. -/
theorem pieces_of_next_none (h : next p s = none) : pieces p s = [] := by
  rw [← pieces_dropWhile]
  dsimp only [next] at h
  split_ifs at h with hnil
  rw [hnil, pieces_nil]

/-- The pieces are read off one after the other. -/
theorem pieces_of_next (h : next p s = some (piece, rest)) :
    piece ≠ [] ∧ pieces p s = piece :: pieces p rest := by
  rw [← pieces_dropWhile]
  dsimp only [next] at h
  split_ifs at h with hnil
  obtain ⟨hpiece, hrest⟩ := Prod.mk.inj (Option.some.inj h)
  have hfree : ∀ a ∈ piece, p a = false := by
    intro a ha
    rw [← hpiece] at ha
    simpa using List.mem_takeWhile_imp ha
  have hne : piece ≠ [] := by
    -- the first element behind the separators is none
    have hhead := List.head_dropWhile_not p hnil
    rw [← hpiece, ← List.cons_head_tail hnil, List.takeWhile_cons_of_pos (by rw [hhead]; rfl)]
    exact List.cons_ne_nil _ _
  refine ⟨hne, ?_⟩
  have hsplit : piece ++ (s.dropWhile p).dropWhile (fun a => !p a) = s.dropWhile p := by
    rw [← hpiece]
    exact List.takeWhile_append_dropWhile
  rw [← hsplit, ← hrest]
  cases hsuffix : (s.dropWhile p).dropWhile fun a => !p a with
  | nil => rw [List.append_nil, pieces_of_free hne hfree, List.drop_nil, pieces_nil]
  | cons a t =>
    have ha : p a = true := by
      have hhead := List.head?_dropWhile_not (fun a => !p a) (s.dropWhile p)
      rw [hsuffix] at hhead
      simpa using hhead
    rw [pieces_append_cons ha, pieces_of_free hne hfree]
    rfl

/-- Runs without separators are the pieces of the list that joins them. -/
theorem pieces_intercalate {tokens : List (List α)} (ha : p a = true)
    (hfree : ∀ token ∈ tokens, token ≠ [] ∧ ∀ b ∈ token, p b = false) :
    pieces p ([a].intercalate tokens) = tokens := by
  induction tokens with
  | nil => rfl
  | cons token tokens ih =>
    obtain ⟨⟨hne, htoken⟩, htokens⟩ := List.forall_mem_cons.mp hfree
    cases tokens with
    | nil => rw [List.intercalate_singleton, pieces_of_free hne htoken]
    | cons next tokens =>
      rw [List.intercalate_cons_cons, List.append_assoc, List.singleton_append,
        pieces_append_cons ha, pieces_of_free hne htoken, ih htokens, List.singleton_append]

end Pieces
