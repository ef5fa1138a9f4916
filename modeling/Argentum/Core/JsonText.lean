import Argentum.Core.Text

/-! Whitespace-free JSON text. A text tree is what one JSON text says: a word for a
number or a constant, a quoted string, an array or an object whose members stand
in a fixed order. No text of a tree is the start of another's, so the text
determines the tree. -/
namespace Argentum.JsonText
open Text

abbrev doubleQuote : CodePoint := 34
abbrev comma : CodePoint := 44
abbrev colon : CodePoint := 58
abbrev backslash : CodePoint := 92

/-- The characters of numbers and of `null`, `true` and `false`. -/
def wordChar (c : CodePoint) : Bool :=
  (48 ≤ c.val && c.val ≤ 57) || (97 ≤ c.val && c.val ≤ 122) || c == 43 || c == 45 || c == 46

abbrev Word := { text : Str // text ≠ [] ∧ ∀ c ∈ text, wordChar c = true }

/-- What follows a text: nothing, or a character that no word goes on with. -/
def Delimited (rest : Str) : Prop := ∀ c ∈ rest.head?, wordChar c = false

theorem Word.prefix_free {first second : Word} {r s : Str} (endsFirst : Delimited r)
    (endsSecond : Delimited s) (same : first.val ++ r = second.val ++ s) :
    first = second ∧ r = s := by
  have taken : ∀ (word : Word) (rest : Str), Delimited rest →
      (word.val ++ rest).takeWhile wordChar = word.val := by
    intro word rest ends
    rw [List.takeWhile_append_of_pos word.property.2]
    cases rest with
    | nil => simp
    | cons c rest => rw [List.takeWhile_cons_of_neg (by simp [ends c rfl]), List.append_nil]
  have words : first.val = second.val := by
    rw [← taken first r endsFirst, same, taken second s endsSecond]
  refine ⟨Subtype.ext words, ?_⟩
  rw [words] at same
  exact List.append_cancel_left same

/-- One character of a quoted string, as `json.dumps` escapes it with `ensure_ascii=False`. -/
def escape (c : CodePoint) : Str :=
  if c = doubleQuote then [backslash, doubleQuote]
  else if c = backslash then [backslash, backslash]
  else if c = 8 then [backslash, 98]
  else if c = 12 then [backslash, 102]
  else if c = 10 then [backslash, 110]
  else if c = 13 then [backslash, 114]
  else if c = 9 then [backslash, 116]
  else if small : c.val < 32 then
    [backslash, 117, 48, 48, hexDigit ⟨c.val / 16, by omega⟩, hexDigit ⟨c.val % 16, by omega⟩]
  else [c]

def quote (text : Str) : Str := doubleQuote :: text.flatMap escape ++ [doubleQuote]

/-- The character that starts the inside of a quoted string, and what follows it. -/
def unescapeHead : Str → Option (CodePoint × Str)
  | [] => none
  | c :: rest =>
      if c = doubleQuote then none
      else if c = backslash then
        match rest with
        | 117 :: 48 :: 48 :: high :: low :: rest =>
            match digitValue? high, digitValue? low with
            | some high, some low => some (Fin.ofNat 0x110000 (16 * high.val + low.val), rest)
            | _, _ => none
        | 98 :: rest => some (8, rest)
        | 102 :: rest => some (12, rest)
        | 110 :: rest => some (10, rest)
        | 114 :: rest => some (13, rest)
        | 116 :: rest => some (9, rest)
        | d :: rest => some (d, rest)
        | [] => none
      else some (c, rest)

theorem unescapeHead_escape (c : CodePoint) (r : Str) : unescapeHead (escape c ++ r) = some (c, r) := by
  unfold escape
  split
  · rename_i named
    rw [named]
    rfl
  split
  · rename_i named
    rw [named]
    rfl
  iterate 5
    split
    · rename_i named
      rw [named]
      rfl
  split
  · rename_i small
    simp only [List.cons_append, List.nil_append, unescapeHead, digitValue?_hexDigit]
    rw [if_neg (by decide), if_pos trivial, Option.some.injEq, Prod.mk.injEq]
    refine ⟨Fin.ext ?_, rfl⟩
    simp only [Fin.ofNat]
    omega
  · rename_i plain notSlash _ _ _ _ _ _
    unfold unescapeHead
    simp only [List.singleton_append, if_neg plain, if_neg notSlash]

theorem quote_prefix_free {s t r r' : Str} (same : quote s ++ r = quote t ++ r') : s = t ∧ r = r' := by
  simp only [quote, List.cons_append, List.append_assoc, List.cons.injEq, true_and,
    List.nil_append] at same
  induction s generalizing t with
  | nil =>
      cases t with
      | nil => exact ⟨rfl, List.tail_eq_of_cons_eq same⟩
      | cons d rest =>
          have decoded := congrArg unescapeHead same
          rw [List.flatMap_cons, List.append_assoc, unescapeHead_escape] at decoded
          simp [unescapeHead] at decoded
  | cons c rest ih =>
      cases t with
      | nil =>
          have decoded := congrArg unescapeHead same
          rw [List.flatMap_cons, List.append_assoc, unescapeHead_escape] at decoded
          simp [unescapeHead] at decoded
      | cons d others =>
          have decoded := congrArg unescapeHead same
          rw [List.flatMap_cons, List.append_assoc, unescapeHead_escape, List.flatMap_cons,
            List.append_assoc, unescapeHead_escape, Option.some.injEq, Prod.mk.injEq] at decoded
          obtain ⟨rfl, later⟩ := decoded
          obtain ⟨rfl, ends⟩ := ih later
          exact ⟨rfl, ends⟩

/-- `sep.join(texts)` for a one-character separator. -/
def join (sep : CodePoint) : List Str → Str
  | [] => []
  | [text] => text
  | text :: next :: rest => text ++ sep :: join sep (next :: rest)

theorem join_cons (sep : CodePoint) (text : Str) (rest : List Str) :
    join sep (text :: rest) = text ++ rest.flatMap (sep :: ·) := by
  induction rest generalizing text with
  | nil => simp [join]
  | cons next rest ih => rw [join, ih, List.flatMap_cons, List.cons_append]

section
variable {α : Type*} {f : α → Str} {close : CodePoint}

/-- `f x` determines `x` and where its text ends. -/
def SelfDelimiting (f : α → Str) (x : α) : Prop :=
  ∀ y r s, Delimited r → Delimited s → f x ++ r = f y ++ s → x = y ∧ r = s

private theorem separated_prefix_free {xs ys : List α} {r s : Str}
    (each : ∀ x ∈ xs, SelfDelimiting f x) (closes : wordChar close = false) (apart : close ≠ comma)
    (same : xs.flatMap (comma :: f ·) ++ close :: r = ys.flatMap (comma :: f ·) ++ close :: s) :
    xs = ys ∧ r = s := by
  induction xs generalizing ys with
  | nil =>
      cases ys with
      | nil => exact ⟨rfl, List.tail_eq_of_cons_eq same⟩
      | cons y ys => exact absurd (List.head_eq_of_cons_eq same) apart
  | cons x xs ih =>
      cases ys with
      | nil => exact absurd (List.head_eq_of_cons_eq same).symm apart
      | cons y ys =>
          have ends : ∀ (zs : List α) (rest : Str),
              Delimited (zs.flatMap (comma :: f ·) ++ close :: rest) := by
            rintro (_ | ⟨z, zs⟩) rest c first
            · rwa [← Option.some.inj first]
            · rw [← Option.some.inj first]
              rfl
          simp only [List.flatMap_cons, List.cons_append, List.append_assoc, List.cons.injEq,
            true_and] at same
          obtain ⟨rfl, later⟩ := each x List.mem_cons_self y _ _ (ends xs r) (ends ys s) same
          obtain ⟨rfl, rest⟩ := ih (fun x member => each x (List.mem_cons_of_mem _ member)) later
          exact ⟨rfl, rest⟩

/-- A bracketed list of self-delimiting texts is self-delimiting. -/
theorem join_prefix_free {xs ys : List α} {r s : Str} (each : ∀ x ∈ xs, SelfDelimiting f x)
    (closes : wordChar close = false) (apart : close ≠ comma)
    (opens : ∀ x rest, (f x ++ rest).head? ≠ some close)
    (same : join comma (xs.map f) ++ close :: r = join comma (ys.map f) ++ close :: s) :
    xs = ys ∧ r = s := by
  cases xs with
  | nil =>
      cases ys with
      | nil => exact ⟨rfl, List.tail_eq_of_cons_eq same⟩
      | cons y ys =>
          rw [List.map_cons, join_cons, List.append_assoc] at same
          exact absurd (congrArg List.head? same).symm (opens y _)
  | cons x xs =>
      cases ys with
      | nil =>
          rw [List.map_cons, join_cons, List.append_assoc] at same
          exact absurd (congrArg List.head? same) (opens x _)
      | cons y ys =>
          have commas : comma :: (join comma ((x :: xs).map f) ++ close :: r) =
              comma :: (join comma ((y :: ys).map f) ++ close :: s) := congrArg _ same
          simp only [List.map_cons, join_cons, List.flatMap_map] at commas
          exact separated_prefix_free each closes apart (by simpa using commas)

end

inductive Tree where
  | word (text : Word)
  | str (text : Str)
  | list (items : List Tree)
  | dict (items : List (Str × Tree))

theorem Tree.induct {P : Tree → Prop} (word : ∀ text, P (.word text)) (str : ∀ text, P (.str text))
    (list : ∀ items, (∀ item ∈ items, P item) → P (.list items))
    (dict : ∀ items, (∀ item ∈ items, P item.2) → P (.dict items)) (tree : Tree) : P tree :=
  Tree.rec (motive_1 := P) (motive_2 := fun items => ∀ item ∈ items, P item)
    (motive_3 := fun items => ∀ item ∈ items, P item.2) (motive_4 := fun item => P item.2)
    word str list dict (by simp) (fun _ _ first rest => List.forall_mem_cons.mpr ⟨first, rest⟩)
    (by simp) (fun _ _ first rest => List.forall_mem_cons.mpr ⟨first, rest⟩) (fun _ _ h => h) tree

mutual

def Tree.print : Tree → Str
  | .word text => text.val
  | .str text => quote text
  | .list items => 91 :: join comma (printAll items) ++ [93]
  | .dict items => 123 :: join comma (printItems items) ++ [125]
termination_by structural tree => tree

def printAll : List Tree → List Str
  | [] => []
  | item :: rest => item.print :: printAll rest
termination_by structural items => items

def printItems : List (Str × Tree) → List Str
  | [] => []
  | (key, item) :: rest => (quote key ++ colon :: item.print) :: printItems rest
termination_by structural items => items

end

theorem printAll_eq_map (items : List Tree) : printAll items = items.map Tree.print := by
  induction items with
  | nil => rfl
  | cons item rest ih => rw [printAll, ih, List.map_cons]

def printItem (item : Str × Tree) : Str := quote item.1 ++ colon :: item.2.print

theorem printItems_eq_map (items : List (Str × Tree)) : printItems items = items.map printItem := by
  induction items with
  | nil => rfl
  | cons item rest ih => rw [printItems, ih, List.map_cons, printItem]

/-- The character that opens a text which is not a word. -/
def Tree.opening : Tree → Option CodePoint
  | .word _ => none
  | .str _ => some doubleQuote
  | .list _ => some 91
  | .dict _ => some 123

theorem Tree.opening_print (tree : Tree) (rest : Str) :
    (tree.print ++ rest).head?.filter (fun c => !wordChar c) = tree.opening := by
  cases tree with
  | word text =>
      obtain ⟨text, full, chars⟩ := text
      cases text with
      | nil => contradiction
      | cons c text => simp [print, opening, chars c]
  | str | list | dict => rfl

theorem Tree.print_opens {close : CodePoint} (closes : close = 93 ∨ close = 125) (tree : Tree)
    (rest : Str) : (tree.print ++ rest).head? ≠ some close := by
  intro starts
  have closing : wordChar close = false := by
    rcases closes with rfl | rfl <;> rfl
  have opened := opening_print tree rest
  rw [starts, Option.filter_some, if_pos (by rw [closing]; rfl)] at opened
  cases tree <;> rcases closes with rfl | rfl <;> simp [opening, doubleQuote] at opened

theorem printItem_prefix_free {item : Str × Tree} (value : SelfDelimiting Tree.print item.2) :
    SelfDelimiting printItem item := by
  intro other r s endsFirst endsSecond same
  simp only [printItem, List.append_assoc, List.cons_append] at same
  obtain ⟨keys, rest⟩ := quote_prefix_free same
  obtain ⟨values, rest⟩ := value other.2 r s endsFirst endsSecond (List.tail_eq_of_cons_eq rest)
  exact ⟨Prod.ext keys values, rest⟩

/-- No JSON text is the start of another. -/
theorem Tree.print_prefix_free (tree : Tree) : SelfDelimiting Tree.print tree := by
  induction tree using Tree.induct with
  | word text =>
      intro other r s endsFirst endsSecond same
      have opened : opening (.word text) = other.opening := by
        rw [← opening_print _ r, same, opening_print]
      cases other with
      | word text' =>
          obtain ⟨rfl, rest⟩ := Word.prefix_free endsFirst endsSecond same
          exact ⟨rfl, rest⟩
      | str | list | dict => simp [opening] at opened
  | str text =>
      intro other r s _ _ same
      have opened : opening (.str text) = other.opening := by
        rw [← opening_print _ r, same, opening_print]
      cases other with
      | str text' =>
          obtain ⟨rfl, rest⟩ := quote_prefix_free same
          exact ⟨rfl, rest⟩
      | word | list | dict => simp [opening, doubleQuote] at opened
  | list items ih =>
      intro other r s _ _ same
      have opened : opening (.list items) = other.opening := by
        rw [← opening_print _ r, same, opening_print]
      cases other with
      | list items' =>
          simp only [print, List.cons_append, List.append_assoc, List.nil_append, List.cons.injEq,
            true_and, printAll_eq_map] at same
          obtain ⟨rfl, rest⟩ := join_prefix_free ih rfl (by decide)
            (print_opens (Or.inl rfl)) same
          exact ⟨rfl, rest⟩
      | word | str | dict => simp [opening, doubleQuote] at opened
  | dict items ih =>
      intro other r s _ _ same
      have opened : opening (.dict items) = other.opening := by
        rw [← opening_print _ r, same, opening_print]
      cases other with
      | dict items' =>
          simp only [print, List.cons_append, List.append_assoc, List.nil_append, List.cons.injEq,
            true_and, printItems_eq_map] at same
          obtain ⟨rfl, rest⟩ := join_prefix_free
            (fun item member => printItem_prefix_free (ih item member)) rfl (by decide)
            (fun _ _ => by simp [printItem, quote, doubleQuote]) same
          exact ⟨rfl, rest⟩
      | word | str | list => simp [opening, doubleQuote] at opened

theorem Tree.print_injective {first second : Tree} (same : first.print = second.print) :
    first = second := by
  have ends : Delimited [] := by
    intro c none
    contradiction
  exact (print_prefix_free first second [] [] ends ends (by rw [same])).1

end Argentum.JsonText
