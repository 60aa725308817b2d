/-! Substrings: finding, splitting and replacing. -/
namespace CodeAgent.Text

/-- The rest of a text after a given start, if it starts so. -/
def dropStart? : List Char → List Char → Option (List Char)
  | [], cs => some cs
  | _ :: _, [] => none
  | p :: ps, c :: cs => if p == c then dropStart? ps cs else none

/-- A text starts with another one. -/
def startsWith (start cs : List Char) : Bool :=
  (dropStart? start cs).isSome

/-- The text before the first occurrence of another one and the text after it. -/
def cutAt? (part : List Char) : List Char → Option (List Char × List Char)
  | [] => if part.isEmpty then some ([], []) else none
  | c :: cs =>
    match dropStart? part (c :: cs) with
    | some rest => some ([], rest)
    | none => (cutAt? part cs).map fun r => (c :: r.1, r.2)

theorem dropStart?_eq_some {start cs rest : List Char} (h : dropStart? start cs = some rest) :
    cs = start ++ rest := by
  induction start generalizing cs with
  | nil => simpa [dropStart?] using h
  | cons p ps ih =>
    cases cs with
    | nil => simp [dropStart?] at h
    | cons d ds =>
      simp only [dropStart?] at h
      split at h
      · next hpd =>
        rw [ih h, eq_of_beq hpd]
        rfl
      · contradiction

/-- A cut loses nothing. -/
theorem cutAt?_eq_some {part cs before rest : List Char} (h : cutAt? part cs = some (before, rest)) :
    cs = before ++ part ++ rest := by
  induction cs generalizing before rest with
  | nil =>
    simp only [cutAt?] at h
    split at h
    · next hp =>
      simp only [Option.some.injEq, Prod.mk.injEq] at h
      simp [← h.1, ← h.2, List.isEmpty_iff.mp hp]
    · contradiction
  | cons c cs ih =>
    simp only [cutAt?] at h
    split at h
    · next r hr =>
      simp only [Option.some.injEq, Prod.mk.injEq] at h
      rw [← h.1, ← h.2, dropStart?_eq_some hr]
      rfl
    · simp only [Option.map_eq_some_iff, Prod.mk.injEq, Prod.exists] at h
      obtain ⟨a, b, hab, rfl, rfl⟩ := h
      rw [ih hab]
      rfl

/-- A text occurs in another one. -/
def occursIn (part cs : List Char) : Bool :=
  (cutAt? part cs).isSome

/-- A text occurs in another one. -/
def containsText (s part : String) : Bool :=
  occursIn part.toList s.toList

/-- Replace every occurrence of a non-empty text, from the left, within a number of steps. -/
private def replaceFrom (part new : List Char) : Nat → List Char → List Char
  | 0, cs => cs
  | n + 1, cs =>
    match cutAt? part cs with
    | none => cs
    | some (before, after) => before ++ new ++ replaceFrom part new n after

/-- Replace every occurrence of a non-empty text, from the left. -/
def replaceEach (part new cs : List Char) : List Char :=
  if part.isEmpty then cs else replaceFrom part new cs.length cs

/-- What is left to replace gets shorter, so that as many steps as there are characters are enough. -/
private theorem replaceFrom_eq {part new cs : List Char} {n m : Nat} (filled : part ≠ []) (enough : cs.length ≤ n)
    (enough' : cs.length ≤ m) : replaceFrom part new n cs = replaceFrom part new m cs := by
  induction n generalizing m cs with
  | zero =>
    obtain rfl := List.eq_nil_of_length_eq_zero (Nat.le_zero.mp enough)
    cases m with
    | zero => rfl
    | succ m => rw [replaceFrom, replaceFrom, cutAt?, if_neg (by simpa using filled)]
  | succ n ih =>
    cases cut : cutAt? part cs with
    | none =>
      cases m with
      | zero => rw [replaceFrom, replaceFrom, cut]
      | succ m => rw [replaceFrom, replaceFrom, cut]
    | some halves =>
      obtain ⟨before, after⟩ := halves
      have shorter : after.length < cs.length := by
        have whole := congrArg List.length (cutAt?_eq_some cut)
        have := List.length_pos_iff.mpr filled
        simp only [List.length_append] at whole
        omega
      cases m with
      | zero => omega
      | succ m =>
        rw [replaceFrom, replaceFrom, cut]
        dsimp only
        rw [ih (by omega) (by omega : after.length ≤ m)]

section replaceEach
variable {part new : List Char} (filled : part ≠ [])
include filled

theorem replaceEach_nil : replaceEach part new [] = [] := by
  rw [replaceEach, if_neg (by simpa using filled)]
  rfl

private theorem replaceEach_of_cut {cs before after : List Char} (cut : cutAt? part cs = some (before, after)) :
    replaceEach part new cs = before ++ new ++ replaceEach part new after := by
  have empty : ¬ part.isEmpty = true := by simpa using filled
  have whole := congrArg List.length (cutAt?_eq_some cut)
  have := List.length_pos_iff.mpr filled
  simp only [List.length_append] at whole
  rw [replaceEach, if_neg empty, replaceEach, if_neg empty, replaceFrom_eq filled (Nat.le_refl _)
    (Nat.le_succ cs.length), replaceFrom, cut]
  dsimp only
  rw [replaceFrom_eq filled (by omega) (Nat.le_refl after.length)]

private theorem replaceEach_of_no_cut {cs : List Char} (none : cutAt? part cs = none) :
    replaceEach part new cs = cs := by
  rw [replaceEach, if_neg (by simpa using filled)]
  cases cs with
  | nil => rfl
  | cons c cs => rw [List.length_cons, replaceFrom, none]

/-- A text that starts with what is to be replaced. -/
theorem replaceEach_hit {cs rest : List Char} (found : dropStart? part cs = some rest) :
    replaceEach part new cs = new ++ replaceEach part new rest := by
  have cut : cutAt? part cs = some ([], rest) := by
    cases cs with
    | nil =>
      cases part with
      | nil => contradiction
      | cons p ps => cases found
    | cons c cs => rw [cutAt?, found]
  exact replaceEach_of_cut filled cut

/-- A text that does not start with what is to be replaced. -/
theorem replaceEach_miss {c : Char} {cs : List Char} (missed : dropStart? part (c :: cs) = none) :
    replaceEach part new (c :: cs) = c :: replaceEach part new cs := by
  cases cut : cutAt? part cs with
  | none =>
    have whole : cutAt? part (c :: cs) = none := by rw [cutAt?, missed, cut]; rfl
    rw [replaceEach_of_no_cut filled whole, replaceEach_of_no_cut filled cut]
  | some halves =>
    have whole : cutAt? part (c :: cs) = some (c :: halves.1, halves.2) := by rw [cutAt?, missed, cut]; rfl
    rw [replaceEach_of_cut filled whole, replaceEach_of_cut filled cut]
    rfl

end replaceEach

/-- The matches of a reader from left to right with the offsets where they start. A match is
followed by the first one that starts at or after its end. -/
def findEach {α : Type} (match? : List Char → Option (α × List Char)) (offset : Nat) :
    List Char → List (Nat × α)
  | [] => []
  | c :: cs =>
    match match? (c :: cs) with
    | none => findEach match? (offset + 1) cs
    | some (a, rest) =>
      if rest.length < cs.length + 1 then
        (offset, a) :: findEach match? (offset + (cs.length + 1 - rest.length)) rest
      else findEach match? (offset + 1) cs
termination_by cs => cs.length

end CodeAgent.Text
