import Mathlib.Data.List.Basic
import Mathlib.Logic.Function.Basic

/-!
# Words and delimiters

A word consists of letters, and a delimiter is not a letter.  Where a word is followed by
nothing or by a delimiter, it can be told from what follows; so words with a delimiter
before each can be read back from their concatenation.
-/

namespace List

variable {α β : Type*} {letter : α → Bool}

/-- The list is empty or begins with a delimiter. -/
def Delimited (letter : α → Bool) (rest : List α) : Prop :=
  ∀ a ∈ rest.head?, letter a = false

theorem delimited_nil : Delimited letter [] := by simp [Delimited]

theorem delimited_cons {a : α} (h : letter a = false) (rest : List α) :
    Delimited letter (a :: rest) := by
  simpa [Delimited] using h

/-- The letters up to the first delimiter are the word. -/
theorem takeWhile_word_append {word rest : List α} (hword : ∀ a ∈ word, letter a = true)
    (hrest : Delimited letter rest) : (word ++ rest).takeWhile letter = word := by
  have hstop : rest.takeWhile letter = [] := by
    rcases rest with _ | ⟨a, rest⟩
    · rfl
    · rw [takeWhile_cons, hrest a rfl, if_neg Bool.false_ne_true]
  rw [takeWhile_append_of_pos hword, hstop, append_nil]

theorem word_append_inj {word word' rest rest' : List α}
    (hword : ∀ a ∈ word, letter a = true) (hword' : ∀ a ∈ word', letter a = true)
    (hrest : Delimited letter rest) (hrest' : Delimited letter rest') :
    word ++ rest = word' ++ rest' ↔ word = word' ∧ rest = rest' := by
  constructor
  · intro h
    have hsame : word = word' := by
      rw [← takeWhile_word_append hword hrest, h, takeWhile_word_append hword' hrest']
    subst hsame
    exact ⟨rfl, append_cancel_left h⟩
  · rintro ⟨rfl, rfl⟩
    rfl

/-- Words with a delimiter before each, joined. -/
def precede (delimiter : α) (word : β → List α) (bs : List β) : List α :=
  bs.flatMap fun b => delimiter :: word b

theorem delimited_precede {delimiter : α} (h : letter delimiter = false) (word : β → List α)
    (bs : List β) : Delimited letter (precede delimiter word bs) := by
  rcases bs with _ | ⟨b, bs⟩
  · exact delimited_nil
  · exact delimited_cons h _

theorem precede_inj {delimiter : α} {word : β → List α} (h : letter delimiter = false)
    (hword : ∀ b, ∀ a ∈ word b, letter a = true) (hinj : Function.Injective word)
    {bs bs' : List β} : precede delimiter word bs = precede delimiter word bs' ↔ bs = bs' := by
  refine ⟨?_, fun heq => by rw [heq]⟩
  induction bs generalizing bs' with
  | nil =>
      rcases bs' with _ | ⟨b', bs'⟩
      · exact fun _ => rfl
      · intro heq
        simp [precede] at heq
  | cons b bs ih =>
      rcases bs' with _ | ⟨b', bs'⟩
      · intro heq
        simp [precede] at heq
      · intro heq
        have hrest : word b ++ precede delimiter word bs =
            word b' ++ precede delimiter word bs' := (cons.inj heq).2
        rw [word_append_inj (hword b) (hword b') (delimited_precede h word bs)
          (delimited_precede h word bs')] at hrest
        rw [hinj hrest.1, ih hrest.2]

end List
