import Maru.Framework.Json
import Mathlib.Data.List.TakeWhile

/-!
# How deep a JSON text nests

`scanText` is the reading of a JSON text by recursive descent, as `json.loads` does it, keeping only
how many containers it has been inside at once (`Parse.deepest`), also where it fails. What its
caller lets it do with the numbers, the constants and the keys of an object are its `Hooks`.

Brackets outside strings say how deep it is without a parse: `Brackets` counts them from character
to character. Whatever the parser reads, well formed or not, it has been exactly as deep as the
brackets it has passed (`scanText_consumes`), and more fuel than there are characters changes
nothing (`scanValue_fuel`).
-/

namespace Maru.Json

open Digits

/-! ## Numbers -/

/-- The text of a number without its sign. -/
def matchNatural : List Char → Option (List Char × List Char)
  | [] => none
  | c :: cs =>
    if c = '0' then some (['0'], cs)
    else if (digitVal? c).isSome then
      some (c :: cs.takeWhile (digitVal? · |>.isSome), cs.dropWhile (digitVal? · |>.isSome))
    else none

/-- The text of a number and what follows it. -/
def matchNumber (cs : List Char) : Option (List Char × List Char) := do
  let signed := cs.head? = some '-'
  let (natural, rest) ← matchNatural (if signed then cs.tail else cs)
  let (fraction, rest) := readFraction rest
  let (exponent, rest) := readExponent rest
  return ((if signed then ['-'] else []) ++ natural ++ fraction ++ exponent, rest)

/-! ## The parser -/

/-- What the caller of the parser accepts: the text of a number, a constant that is no number, and
the keys of an object. -/
structure Hooks where
  number : List Char → Bool
  constant : List Char → Bool
  object : List (List Nat) → Bool

/-- How deep a parser has been, and what it has read, with the text that follows. -/
structure Parse (α : Type) where
  deepest : Nat
  result : Option (α × List Char)

def Parse.bind {α β : Type} (p : Parse α) (f : α → List Char → Parse β) : Parse β :=
  match p.result with
  | none => { deepest := p.deepest, result := none }
  | some (a, rest) => { deepest := max p.deepest (f a rest).deepest, result := (f a rest).result }

/-- Read the characters `word`, inside `depth` containers. -/
def scanWord (depth : Nat) (accepted : Bool) (word cs : List Char) : Parse Unit where
  deepest := depth
  result := if accepted ∧ word.isPrefixOf cs then some ((), cs.drop word.length) else none

section

variable (hooks : Hooks)

mutual

/-- A value inside `depth` containers. -/
def scanValue (fuel depth : Nat) (cs : List Char) : Parse Unit :=
  match fuel with
  | 0 => ⟨depth, none⟩
  | fuel + 1 =>
    match cs with
    | [] => ⟨depth, none⟩
    | '"' :: cs => ⟨depth, (readPoints cs).map fun read => ((), read.2)⟩
    | '[' :: cs =>
      match skipBlanks cs with
      | ']' :: rest => ⟨depth + 1, some ((), rest)⟩
      | cs => (scanValue fuel (depth + 1) cs).bind fun _ rest => scanElems fuel (depth + 1) (skipBlanks rest)
    | '{' :: cs =>
      match skipBlanks cs with
      | '}' :: rest => ⟨depth + 1, if hooks.object [] then some ((), rest) else none⟩
      | cs => (scanMember fuel (depth + 1) cs).bind fun key rest => scanMembers fuel (depth + 1) [key] (skipBlanks rest)
    | 'n' :: cs => scanWord depth true "ull".toList cs
    | 't' :: cs => scanWord depth true "rue".toList cs
    | 'f' :: cs => scanWord depth true "alse".toList cs
    | 'N' :: cs => scanWord depth (hooks.constant "NaN".toList) "aN".toList cs
    | 'I' :: cs => scanWord depth (hooks.constant "Infinity".toList) "nfinity".toList cs
    | '-' :: 'I' :: cs => scanWord depth (hooks.constant "-Infinity".toList) "nfinity".toList cs
    | cs => ⟨depth, ((matchNumber cs).filter fun read => hooks.number read.1).map fun read => ((), read.2)⟩

/-- The elements after the first, up to the closing bracket. -/
def scanElems (fuel depth : Nat) (cs : List Char) : Parse Unit :=
  match fuel with
  | 0 => ⟨depth, none⟩
  | fuel + 1 =>
    match cs with
    | ']' :: rest => ⟨depth, some ((), rest)⟩
    | ',' :: cs => (scanValue fuel depth (skipBlanks cs)).bind fun _ rest => scanElems fuel depth (skipBlanks rest)
    | _ => ⟨depth, none⟩

/-- A key and its value. -/
def scanMember (fuel depth : Nat) (cs : List Char) : Parse (List Nat) :=
  match fuel with
  | 0 => ⟨depth, none⟩
  | fuel + 1 =>
    match cs with
    | '"' :: cs => Parse.bind ⟨depth, readPoints cs⟩ fun key rest =>
      match skipBlanks rest with
      | ':' :: rest => (scanValue fuel depth (skipBlanks rest)).bind fun _ rest => ⟨depth, some (key, rest)⟩
      | _ => ⟨depth, none⟩
    | _ => ⟨depth, none⟩

/-- The members after those with the `keys`, up to the closing brace. -/
def scanMembers (fuel depth : Nat) (keys : List (List Nat)) (cs : List Char) : Parse Unit :=
  match fuel with
  | 0 => ⟨depth, none⟩
  | fuel + 1 =>
    match cs with
    | '}' :: rest => ⟨depth, if hooks.object keys then some ((), rest) else none⟩
    | ',' :: cs => (scanMember fuel depth (skipBlanks cs)).bind fun key rest =>
        scanMembers fuel depth (keys ++ [key]) (skipBlanks rest)
    | _ => ⟨depth, none⟩

end

/-- A whole text: a value and nothing after it but blanks. -/
def scanText (cs : List Char) : Parse Unit :=
  (scanValue hooks (cs.length + 1) 0 (skipBlanks cs)).bind fun _ rest =>
    ⟨0, if skipBlanks rest = [] then some ((), []) else none⟩

end

/-! ## Brackets -/

/-- Where a reader of brackets is between two characters. -/
structure Brackets where
  depth : Int
  quoted : Bool
  escaped : Bool

/-- Outside strings. -/
def Brackets.outside (d : Int) : Brackets := ⟨d, false, false⟩

/-- The next character. -/
def Brackets.next (b : Brackets) (c : Char) : Brackets :=
  if b.quoted then
    if b.escaped then { b with escaped := false }
    else if c = '\\' then { b with escaped := true }
    else if c = '"' then { b with quoted := false }
    else b
  else if c = '"' then { b with quoted := true }
  else if c = '{' ∨ c = '[' then { b with depth := b.depth + 1 }
  else if c = '}' ∨ c = ']' then { b with depth := b.depth - 1 }
  else b

def Brackets.run (b : Brackets) (cs : List Char) : Brackets := cs.foldl Brackets.next b

/-- The greatest depth between two of the characters. -/
def Brackets.peak (b : Brackets) : List Char → Int
  | [] => b.depth
  | c :: cs => max b.depth ((b.next c).peak cs)

@[simp] theorem Brackets.run_nil (b : Brackets) : b.run [] = b := rfl

@[simp] theorem Brackets.run_cons (b : Brackets) (c : Char) (cs : List Char) : b.run (c :: cs) = (b.next c).run cs := rfl

theorem Brackets.run_append (b : Brackets) (cs ds : List Char) : b.run (cs ++ ds) = (b.run cs).run ds := by
  simp [Brackets.run]

theorem Brackets.depth_le_peak (b : Brackets) (cs : List Char) : b.depth ≤ b.peak cs := by
  cases cs with
  | nil => exact le_refl _
  | cons c cs => exact le_max_left _ _

theorem Brackets.peak_append (b : Brackets) (cs ds : List Char) :
    b.peak (cs ++ ds) = max (b.peak cs) ((b.run cs).peak ds) := by
  induction cs generalizing b with
  | nil => exact (max_eq_right (b.depth_le_peak ds)).symm
  | cons c cs ih => rw [List.cons_append, Brackets.peak, Brackets.peak, Brackets.run_cons, ih, max_assoc]

/-- A character that says nothing of the depth outside a string. -/
def Neutral (c : Char) : Prop := c ≠ '"' ∧ c ≠ '{' ∧ c ≠ '[' ∧ c ≠ '}' ∧ c ≠ ']'

instance : DecidablePred Neutral := fun _ => inferInstanceAs (Decidable (_ ∧ _))

theorem Brackets.next_neutral {d : Int} {c : Char} (h : Neutral c) : (Brackets.outside d).next c = .outside d := by
  obtain ⟨quote, brace, bracket, brace', bracket'⟩ := h
  simp [Brackets.next, Brackets.outside, quote, brace, bracket, brace', bracket']

/-! ## What is read -/

/-- The parse has read some of `cs`, from depth `s` on. It has been as deep as the brackets it has
passed, and where it has not failed it is at depth `e`, outside strings. -/
def Consumes {α : Type} (s e : Int) (cs : List Char) (p : Parse α) : Prop :=
  ∃ read rest, cs = read ++ rest ∧ (Brackets.outside s).peak read = p.deepest ∧
    ∀ a r, p.result = some (a, r) → r = rest ∧ (Brackets.outside s).run read = .outside e

theorem Consumes.failed {α : Type} {s : Nat} {e : Int} {cs : List Char} : Consumes s e cs (⟨s, none⟩ : Parse α) :=
  ⟨[], cs, rfl, rfl, nofun⟩

theorem Consumes.bind {α β : Type} {s m e : Int} {cs : List Char} {p : Parse α} {f : α → List Char → Parse β}
    (first : Consumes s m cs p) (next : ∀ a r, p.result = some (a, r) → Consumes m e r (f a r)) :
    Consumes s e cs (p.bind f) := by
  obtain ⟨read, rest, rfl, deepest, ends⟩ := first
  unfold Parse.bind
  cases outcome : p.result with
  | none => exact ⟨read, rest, rfl, deepest, nofun⟩
  | some taken =>
    obtain ⟨a, r⟩ := taken
    obtain ⟨rfl, run⟩ := ends a r outcome
    obtain ⟨read', rest', rfl, deepest', ends'⟩ := next a r outcome
    refine ⟨read ++ read', rest', (List.append_assoc _ _ _).symm, ?_, fun a' r' result => ?_⟩
    · rw [Brackets.peak_append, deepest, run, deepest']
      exact (Nat.cast_max _ _).symm
    · obtain ⟨rfl, run'⟩ := ends' a' r' result
      exact ⟨rfl, by rw [Brackets.run_append, run, run']⟩

/-- Characters before what the parse reads, which the brackets pass from depth `s` to depth `m`. -/
theorem Consumes.after {α : Type} {s m e : Int} {before cs : List Char} {p : Parse α}
    (run : (Brackets.outside s).run before = .outside m) (peak : (Brackets.outside s).peak before ≤ p.deepest)
    (h : Consumes m e cs p) : Consumes s e (before ++ cs) p := by
  obtain ⟨read, rest, rfl, deepest, ends⟩ := h
  refine ⟨before ++ read, rest, (List.append_assoc _ _ _).symm, ?_, fun a r result => ?_⟩
  · rw [Brackets.peak_append, run, deepest]
    exact max_eq_right peak
  · obtain ⟨rfl, run'⟩ := ends a r result
    exact ⟨rfl, by rw [Brackets.run_append, run, run']⟩

theorem Brackets.run_neutral {d : Int} {cs : List Char} (h : ∀ c ∈ cs, Neutral c) :
    (Brackets.outside d).run cs = .outside d ∧ (Brackets.outside d).peak cs = d := by
  induction cs with
  | nil => exact ⟨rfl, rfl⟩
  | cons c cs ih =>
    have head := Brackets.next_neutral (d := d) (h c List.mem_cons_self)
    have tail := ih fun c hc => h c (List.mem_cons_of_mem _ hc)
    rw [Brackets.run_cons, Brackets.peak, head]
    exact ⟨tail.1, by rw [tail.2]; exact max_self d⟩

/-- Nothing but characters that say nothing of the depth. -/
theorem Consumes.neutral {α : Type} {s : Nat} {read rest : List Char} {result : Option (α × List Char)}
    (h : ∀ c ∈ read, Neutral c) (ends : ∀ a r, result = some (a, r) → r = rest) :
    Consumes s s (read ++ rest) ⟨s, result⟩ := by
  obtain ⟨run, peak⟩ := Brackets.run_neutral (d := s) h
  exact ⟨read, rest, rfl, peak, fun a r eq => ⟨ends a r eq, run⟩⟩

theorem exists_blanks (cs : List Char) : ∃ blanks, cs = blanks ++ skipBlanks cs ∧ ∀ c ∈ blanks, Neutral c := by
  refine ⟨cs.takeWhile isBlank, (List.takeWhile_append_dropWhile).symm, fun c hc => ?_⟩
  have blank := List.mem_takeWhile_imp hc
  simp only [isBlank, decide_eq_true_eq] at blank
  rcases blank with rfl | rfl | rfl | rfl <;> decide

theorem length_skipBlanks (cs : List Char) : (skipBlanks cs).length ≤ cs.length := List.length_dropWhile_le _ _

/-- Blanks before what is read. -/
theorem Consumes.blanks {α : Type} {s : Nat} {e : Int} {cs : List Char} {p : Parse α}
    (h : Consumes s e (skipBlanks cs) p) : Consumes s e cs p := by
  obtain ⟨blanks, same, neutral⟩ := exists_blanks cs
  obtain ⟨run, peak⟩ := Brackets.run_neutral (d := s) neutral
  rw [same]
  refine Consumes.after run ?_ h
  obtain ⟨read, _, _, deepest, _⟩ := h
  rw [peak, ← deepest]
  exact Brackets.depth_le_peak (.outside s) read

theorem Consumes.deepest_ge {α : Type} {s e : Int} {cs : List Char} {p : Parse α}
    (h : Consumes s e cs p) : s ≤ p.deepest := by
  obtain ⟨read, _, _, deepest, _⟩ := h
  rw [← deepest]
  exact Brackets.depth_le_peak (.outside s) read

/-- What follows what is read is no longer. -/
theorem Consumes.length_le {α : Type} {s e : Int} {cs : List Char} {p : Parse α} (h : Consumes s e cs p) {a : α}
    {r : List Char} (result : p.result = some (a, r)) : r.length ≤ cs.length := by
  obtain ⟨read, rest, rfl, _, ends⟩ := h
  obtain ⟨rfl, _⟩ := ends a r result
  rw [List.length_append]
  omega

/-! ## Strings and numbers -/

theorem next_backslash (d : Int) : (Brackets.mk d true false).next '\\' = ⟨d, true, true⟩ := rfl

theorem next_escaped (d : Int) (c : Char) : (Brackets.mk d true true).next c = ⟨d, true, false⟩ := rfl

theorem next_quoted {d : Int} {c : Char} (quote : c ≠ '"') (backslash : c ≠ '\\') :
    (Brackets.mk d true false).next c = ⟨d, true, false⟩ := by
  simp [Brackets.next, quote, backslash]

theorem hexVal?_ne {c : Char} (h : (hexVal? c).isSome) : c ≠ '"' ∧ c ≠ '\\' := by
  refine ⟨?_, ?_⟩
  · rintro rfl
    exact absurd h (by decide)
  · rintro rfl
    exact absurd h (by decide)

theorem readHex_isSome {a b c d : Char} {n : Nat} {rest : List Char} (h : readHex 4 0 [a, b, c, d] = some (n, rest)) :
    (hexVal? a).isSome ∧ (hexVal? b).isSome ∧ (hexVal? c).isSome ∧ (hexVal? d).isSome := by
  simp only [readHex, readBase] at h
  cases ha : hexVal? a with
  | none => simp [ha] at h
  | some _ =>
    cases hb : hexVal? b with
    | none => simp [ha, hb] at h
    | some _ =>
      cases hc : hexVal? c with
      | none => simp [ha, hb, hc] at h
      | some _ =>
        cases hd : hexVal? d with
        | none => simp [ha, hb, hc, hd] at h
        | some _ => exact ⟨rfl, rfl, rfl, rfl⟩

/-- The brackets pass a string literal, after its opening quote, at one depth. -/
def Closes (d : Int) (read : List Char) : Prop :=
  (Brackets.mk d true false).run read = .outside d ∧ (Brackets.mk d true false).peak read = d

theorem Closes.quote (d : Int) : Closes d ['"'] := ⟨rfl, max_self d⟩

theorem Closes.cons {d : Int} {c : Char} {read : List Char} (next : (Brackets.mk d true false).next c = ⟨d, true, false⟩)
    (h : Closes d read) : Closes d (c :: read) := by
  refine ⟨?_, ?_⟩
  · rw [Brackets.run_cons, next, h.1]
  · rw [Brackets.peak, next, h.2]
    exact max_self d

theorem Closes.escape {d : Int} {c : Char} {read : List Char} (h : Closes d read) : Closes d ('\\' :: c :: read) := by
  refine ⟨?_, ?_⟩
  · rw [Brackets.run_cons, next_backslash, Brackets.run_cons, next_escaped, h.1]
  · rw [Brackets.peak, next_backslash, Brackets.peak, next_escaped, h.2]
    simp

theorem readPoints_closes {cs : List Char} {ns : List Nat} {rest : List Char}
    (h : readPoints cs = some (ns, rest)) (d : Int) :
    ∃ read, cs = read ++ rest ∧ Closes d read := by
  induction cs using readPoints.induct generalizing ns with
  | case1 => cases h
  | case2 cs =>
    unfold readPoints at h
    rw [if_pos rfl] at h
    obtain ⟨rfl, rfl⟩ := Prod.mk.inj (Option.some.inj h)
    exact ⟨['"'], rfl, .quote d⟩
  | case3 a b c e cs quote ih =>
    unfold readPoints at h
    rw [if_neg quote, if_pos rfl] at h
    simp only [Option.bind_eq_bind, Option.bind_eq_some_iff] at h
    obtain ⟨⟨n, _⟩, hex, ⟨ns', rest'⟩, tail, same⟩ := h
    obtain ⟨rfl, rfl⟩ := Prod.mk.inj (Option.some.inj same)
    obtain ⟨read, rfl, closes⟩ := ih tail
    obtain ⟨ha, hb, hc, he⟩ := readHex_isSome hex
    have digit {c : Char} (h : (hexVal? c).isSome) := @next_quoted d _ (hexVal?_ne h).1 (hexVal?_ne h).2
    exact ⟨'\\' :: 'u' :: a :: b :: c :: e :: read, rfl,
      .escape (.cons (digit ha) (.cons (digit hb) (.cons (digit hc) (.cons (digit he) closes))))⟩
  | case4 e cs notHex quote ih =>
    unfold readPoints at h
    rw [if_neg quote, if_pos rfl] at h
    split at h
    · rename_i same
      obtain ⟨rfl, rfl⟩ := List.cons.inj same
      exact absurd rfl (notHex _ _ _ _ _ rfl)
    · rename_i same
      obtain ⟨rfl, rfl⟩ := List.cons.inj same
      simp only [Option.bind_eq_bind, Option.bind_eq_some_iff] at h
      obtain ⟨n, _, ⟨ns', rest'⟩, tail, same⟩ := h
      obtain ⟨rfl, rfl⟩ := Prod.mk.inj (Option.some.inj same)
      obtain ⟨read, rfl, closes⟩ := ih tail
      exact ⟨'\\' :: e :: read, rfl, .escape closes⟩
    · cases h
  | case5 quote =>
    unfold readPoints at h
    rw [if_neg quote, if_pos rfl] at h
    cases h
  | case6 c cs quote backslash control =>
    unfold readPoints at h
    rw [if_neg quote, if_neg backslash, if_pos control] at h
    cases h
  | case7 c cs quote backslash control ih =>
    unfold readPoints at h
    rw [if_neg quote, if_neg backslash, if_neg control] at h
    simp only [Option.bind_eq_bind, Option.bind_eq_some_iff] at h
    obtain ⟨⟨ns', rest'⟩, tail, same⟩ := h
    obtain ⟨rfl, rfl⟩ := Prod.mk.inj (Option.some.inj same)
    obtain ⟨read, rfl, closes⟩ := ih tail
    exact ⟨c :: read, rfl, .cons (next_quoted quote backslash) closes⟩

/-- A text of digits, signs, dots and letters, which stands before `rest` in `cs`. -/
def Splits (cs read rest : List Char) : Prop := cs = read ++ rest ∧ ∀ c ∈ read, Neutral c

theorem digit_neutral {c : Char} (h : (digitVal? c).isSome) : Neutral c := by
  refine ⟨?_, ?_, ?_, ?_, ?_⟩ <;>
  · rintro rfl
    exact absurd h (by decide)

theorem splits_digits (cs : List Char) :
    Splits cs (cs.takeWhile (digitVal? · |>.isSome)) (cs.dropWhile (digitVal? · |>.isSome)) :=
  ⟨List.takeWhile_append_dropWhile.symm, fun c hc =>
    digit_neutral (@List.mem_takeWhile_imp _ (fun c => (digitVal? c).isSome) _ c hc)⟩

theorem Splits.cons {c : Char} {cs read rest : List Char} (hc : Neutral c)
    (h : Splits cs read rest) : Splits (c :: cs) (c :: read) rest :=
  ⟨by rw [h.1]; rfl, List.forall_mem_cons.mpr ⟨hc, h.2⟩⟩

theorem Splits.append {cs read rest read' rest' : List Char} (h : Splits cs read rest)
    (h' : Splits rest read' rest') : Splits cs (read ++ read') rest' :=
  ⟨by rw [h.1, h'.1, List.append_assoc], fun c hc => (List.mem_append.mp hc).elim (h.2 c) (h'.2 c)⟩

theorem Splits.nil (cs : List Char) : Splits cs [] cs := ⟨rfl, by simp⟩

theorem splits_natural {cs natural rest : List Char}
    (h : matchNatural cs = some (natural, rest)) : Splits cs natural rest := by
  cases cs with
  | nil => cases h
  | cons c cs =>
    unfold matchNatural at h
    dsimp only at h
    split_ifs at h with zero digit
    · obtain ⟨rfl, rfl⟩ := Prod.mk.inj (Option.some.inj h)
      subst zero
      exact .cons (by decide) (.nil _)
    · obtain ⟨rfl, rfl⟩ := Prod.mk.inj (Option.some.inj h)
      exact .cons (digit_neutral digit) (splits_digits cs)

theorem splits_fraction (cs : List Char) : Splits cs (readFraction cs).1 (readFraction cs).2 := by
  unfold readFraction
  split
  · split_ifs with digit
    · exact .cons (by decide) (.cons (digit_neutral digit) (splits_digits _))
    · exact .nil _
  · exact .nil _

theorem splits_exponent (cs : List Char) : Splits cs (readExponent cs).1 (readExponent cs).2 := by
  have mark {e : Char} (h : e = 'e' ∨ e = 'E') : Neutral e := by
    rcases h with rfl | rfl <;> decide
  have sign {s : Char} (h : s = '+' ∨ s = '-') : Neutral s := by
    rcases h with rfl | rfl <;> decide
  unfold readExponent
  dsimp only
  split
  · rename_i e s rest
    split_ifs with he hs digit
    · cases rest with
      | nil => exact .nil _
      | cons c rest =>
        dsimp only
        split_ifs with digit
        · exact .cons (mark he) (.cons (sign hs) (.cons (digit_neutral digit) (splits_digits _)))
        · exact .nil _
    · exact .cons (mark he) (.cons (digit_neutral digit) (splits_digits _))
    · exact .nil _
    · exact .nil _
  · exact .nil _

theorem splits_number {cs text rest : List Char} (h : matchNumber cs = some (text, rest)) : Splits cs text rest := by
  simp only [matchNumber, Option.bind_eq_bind, Option.bind_eq_some_iff] at h
  obtain ⟨⟨natural, after⟩, first, same⟩ := h
  obtain ⟨rfl, rfl⟩ := Prod.mk.inj (Option.some.inj same)
  have tail := ((splits_natural first).append (splits_fraction after)).append (splits_exponent (readFraction after).2)
  by_cases signed : cs.head? = some '-'
  · obtain ⟨rest, rfl⟩ : ∃ rest, cs = '-' :: rest := by
      cases cs with
      | nil => cases signed
      | cons c cs => exact ⟨cs, by rw [Option.some.inj signed]⟩
    simp only [signed, if_true] at tail ⊢
    exact .cons (by decide) tail
  · simp only [signed, if_false] at tail ⊢
    exact tail

/-! ## The parser has been as deep as the brackets it has passed -/

section

variable {α : Type} {p : Parse α} {d : Nat} {cs : List Char} {c : Char}

theorem Consumes.opened (hc : c = '[' ∨ c = '{')
    (h : Consumes ((d + 1 : Nat) : Int) d cs p) : Consumes d d (c :: cs) p := by
  have next : (Brackets.outside d).next c = .outside ((d + 1 : Nat) : Int) := by
    rcases hc with rfl | rfl <;> rfl
  have deep := h.deepest_ge
  refine @Consumes.after _ _ ((d + 1 : Nat) : Int) _ [c] _ _ ?_ ?_ h
  · rw [Brackets.run_cons, next, Brackets.run_nil]
  · rw [Brackets.peak, next, Brackets.peak]
    simp only [Brackets.outside, max_le_iff]
    omega

theorem Consumes.closed {result : Option (α × List Char)} (hc : c = ']' ∨ c = '}')
    (ends : ∀ a r, result = some (a, r) → r = cs) :
    Consumes ((d + 1 : Nat) : Int) d (c :: cs) ⟨d + 1, result⟩ := by
  have next : (Brackets.outside ((d + 1 : Nat) : Int)).next c = .outside d := by
    rcases hc with rfl | rfl <;> simp [Brackets.next, Brackets.outside]
  refine ⟨[c], cs, rfl, ?_, fun a r result => ⟨ends a r result, ?_⟩⟩
  · rw [Brackets.peak, next, Brackets.peak]
    simp [Brackets.outside]
  · rw [Brackets.run_cons, next, Brackets.run_nil]

theorem Consumes.skip {e : Int} (hc : Neutral c) (h : Consumes d e cs p) : Consumes d e (c :: cs) p := by
  obtain ⟨run, peak⟩ := @Brackets.run_neutral d [c] (by simpa using hc)
  exact @Consumes.after _ _ _ _ [c] _ _ run (peak.trans_le h.deepest_ge) h

/-- A string literal, from its opening quote. -/
theorem Consumes.string {result : Option (α × List Char)}
    (ends : ∀ a r, result = some (a, r) → ∃ ns, readPoints cs = some (ns, r)) :
    Consumes d d ('"' :: cs) ⟨d, result⟩ := by
  have next : (Brackets.outside d).next '"' = ⟨d, true, false⟩ := rfl
  cases outcome : readPoints cs with
  | none =>
    refine ⟨[], '"' :: cs, rfl, rfl, fun a r result => ?_⟩
    obtain ⟨ns, found⟩ := ends a r result
    rw [outcome] at found
    cases found
  | some found =>
    obtain ⟨ns, rest⟩ := found
    obtain ⟨read, rfl, run, peak⟩ := readPoints_closes outcome d
    refine ⟨'"' :: read, rest, rfl, ?_, fun a r result => ⟨?_, ?_⟩⟩
    · rw [Brackets.peak, next, peak]
      exact max_self (d : Int)
    · obtain ⟨_, same⟩ := ends a r result
      rw [outcome] at same
      exact (Prod.mk.inj (Option.some.inj same)).2.symm
    · rw [Brackets.run_cons, next, run]

theorem Consumes.word {accepted : Bool} {word : List Char} (hword : ∀ c ∈ word, Neutral c) :
    Consumes d d cs (scanWord d accepted word cs) := by
  unfold scanWord
  split_ifs with h
  · have whole : cs = word ++ cs.drop word.length := by
      obtain ⟨rest, rfl⟩ := List.isPrefixOf_iff_prefix.mp h.2
      rw [List.drop_left]
    rw [whole, List.drop_left]
    exact .neutral hword fun a r same => (Prod.mk.inj (Option.some.inj same)).2.symm
  · exact .failed

end

variable (hooks : Hooks)

structure ScansTo (fuel : Nat) : Prop where
  value : ∀ (d : Nat) cs, Consumes d d cs (scanValue hooks fuel d cs)
  elems : ∀ (d : Nat) cs, Consumes ((d + 1 : Nat) : Int) d cs (scanElems hooks fuel (d + 1) cs)
  member : ∀ (d : Nat) cs, Consumes d d cs (scanMember hooks fuel d cs)
  members : ∀ (d : Nat) keys cs, Consumes ((d + 1 : Nat) : Int) d cs (scanMembers hooks fuel (d + 1) keys cs)

theorem scansTo (fuel : Nat) : ScansTo hooks fuel := by
  induction fuel with
  | zero =>
    refine ⟨fun d cs => ?_, fun d cs => ?_, fun d cs => ?_, fun d _ cs => ?_⟩
    · unfold scanValue
      exact .failed
    · unfold scanElems
      exact .failed
    · unfold scanMember
      exact .failed
    · unfold scanMembers
      exact .failed
  | succ fuel ih =>
    refine ⟨fun d cs => ?_, fun d cs => ?_, fun d cs => ?_, fun d keys cs => ?_⟩
    · unfold scanValue
      split
      · exact .failed
      · refine .string fun a r same => ?_
        obtain ⟨found, points, same⟩ := Option.map_eq_some_iff.mp same
        obtain ⟨_, rfl⟩ := Prod.mk.inj same
        exact ⟨_, points⟩
      · refine .opened (.inl rfl) (.blanks ?_)
        split
        · rename_i same
          rw [same]
          exact .closed (.inl rfl) fun a r same => (Prod.mk.inj (Option.some.inj same)).2.symm
        · exact (ih.value _ _).bind fun _ _ _ => (ih.elems d _).blanks
      · refine .opened (.inr rfl) (.blanks ?_)
        split
        · rename_i same
          rw [same]
          refine .closed (.inr rfl) fun a r same => ?_
          split_ifs at same
          exact (Prod.mk.inj (Option.some.inj same)).2.symm
        · exact (ih.member _ _).bind fun _ _ _ => (ih.members d _ _).blanks
      · exact .skip (by decide) (.word (by simp [Neutral]))
      · exact .skip (by decide) (.word (by simp [Neutral]))
      · exact .skip (by decide) (.word (by simp [Neutral]))
      · exact .skip (by decide) (.word (by simp [Neutral]))
      · exact .skip (by decide) (.word (by simp [Neutral]))
      · exact .skip (by decide) (.skip (by decide) (.word (by simp [Neutral])))
      · cases number : matchNumber cs with
        | none => exact .failed
        | some found =>
          obtain ⟨text, rest⟩ := found
          obtain ⟨rfl, neutral⟩ := splits_number number
          refine .neutral neutral fun a r same => ?_
          obtain ⟨found, taken, same⟩ := Option.map_eq_some_iff.mp same
          obtain rfl := Option.some.inj (Option.eq_some_of_filter_eq_some taken)
          exact (Prod.mk.inj same).2.symm
    · unfold scanElems
      split
      · exact .closed (.inl rfl) fun a r same => (Prod.mk.inj (Option.some.inj same)).2.symm
      · exact .skip (by decide) (.blanks ((ih.value _ _).bind fun _ _ _ => (ih.elems d _).blanks))
      · exact .failed
    · unfold scanMember
      split
      · refine (Consumes.string fun key r same => ⟨key, same⟩).bind fun key rest _ => .blanks ?_
        split
        · rename_i same
          rw [same]
          exact .skip (by decide) (.blanks ((ih.value _ _).bind fun _ r _ => @Consumes.neutral _ _ [] r _ (by simp)
            fun _ _ same => (Prod.mk.inj (Option.some.inj same)).2.symm))
        · exact .failed
      · exact .failed
    · unfold scanMembers
      split
      · refine .closed (.inr rfl) fun a r same => ?_
        split_ifs at same
        exact (Prod.mk.inj (Option.some.inj same)).2.symm
      · exact .skip (by decide) (.blanks ((ih.member _ _).bind fun _ _ _ => (ih.members d _ _).blanks))
      · exact .failed

/-- The parser of a text has been as deep as the brackets it has passed, and where it takes the
text, as the brackets of the whole text. -/
theorem scanText_consumes (cs : List Char) : ∃ read rest, cs = read ++ rest ∧
    (Brackets.outside 0).peak read = (scanText hooks cs).deepest ∧
    ((scanText hooks cs).result.isSome → (Brackets.outside 0).peak cs = (scanText hooks cs).deepest) := by
  have value : Consumes (0 : Int) 0 cs (scanValue hooks (cs.length + 1) 0 (skipBlanks cs)) :=
    @Consumes.blanks _ 0 _ _ _ ((scansTo hooks _).value 0 _)
  obtain ⟨read, rest, rfl, deepest, ends⟩ := value
  refine ⟨read, rest, rfl, ?_⟩
  unfold scanText Parse.bind
  cases outcome : (scanValue hooks ((read ++ rest).length + 1) 0 (skipBlanks (read ++ rest))).result with
  | none => exact ⟨deepest, nofun⟩
  | some found =>
    obtain ⟨_, r⟩ := found
    obtain ⟨rfl, run⟩ := ends _ r outcome
    dsimp only
    rw [Nat.max_eq_left (Nat.zero_le _)]
    refine ⟨deepest, fun taken => ?_⟩
    obtain ⟨blanks, same, neutral⟩ := exists_blanks r
    have nothing : skipBlanks r = [] := by
      by_contra some
      rw [if_neg some] at taken
      cases taken
    rw [nothing, List.append_nil] at same
    have flat := (@Brackets.run_neutral 0 blanks neutral).2
    rw [← same] at flat
    rw [Brackets.peak_append, run, flat, deepest]
    exact max_eq_left (Int.natCast_nonneg _)

/-! ## Fuel -/

/-- What comes after the first part may take for granted that no more text is left. -/
theorem Consumes.bind_congr {α β : Type} {s e : Int} {cs : List Char} {p q : Parse α} {f g : α → List Char → Parse β}
    (first : Consumes s e cs p) (same : p = q) (h : ∀ a r, r.length ≤ cs.length →
      f a r = g a r) : p.bind f = q.bind g := by
  subst same
  unfold Parse.bind
  cases outcome : p.result with
  | none => rfl
  | some found =>
    obtain ⟨a, r⟩ := found
    dsimp only
    rw [h a r (first.length_le outcome)]

/-- Fuel beyond the length of the text changes nothing. -/
structure SameWith (fuel fuel' : Nat) : Prop where
  value : ∀ d cs, cs.length < fuel → scanValue hooks fuel d cs = scanValue hooks fuel' d cs
  elems : ∀ d cs, cs.length < fuel → scanElems hooks fuel (d + 1) cs = scanElems hooks fuel' (d + 1) cs
  member : ∀ d cs, cs.length < fuel → scanMember hooks fuel d cs = scanMember hooks fuel' d cs
  members : ∀ d keys cs, cs.length < fuel →
    scanMembers hooks fuel (d + 1) keys cs = scanMembers hooks fuel' (d + 1) keys cs

theorem sameWith {fuel fuel' : Nat} (h : fuel ≤ fuel') : SameWith hooks fuel fuel' := by
  induction fuel generalizing fuel' with
  | zero => exact ⟨nofun, nofun, nofun, nofun⟩
  | succ fuel ih =>
    obtain ⟨more, rfl⟩ : ∃ more, fuel' = more + 1 := ⟨fuel' - 1, by omega⟩
    have same := @ih more (by omega)
    have scans := scansTo hooks fuel
    refine ⟨fun d cs hcs => ?_, fun d cs hcs => ?_, fun d cs hcs => ?_, fun d keys cs hcs => ?_⟩
    · unfold scanValue
      split
      · rfl
      · rfl
      · rename_i cs
        have short := length_skipBlanks cs
        rw [List.length_cons] at hcs
        split
        · rfl
        · refine (scans.value _ _).bind_congr (same.value _ _ (by omega)) fun _ r hr => same.elems _ _ ?_
          have := length_skipBlanks r
          omega
      · rename_i cs
        have short := length_skipBlanks cs
        rw [List.length_cons] at hcs
        split
        · rfl
        · refine (scans.member _ _).bind_congr (same.member _ _ (by omega)) fun _ r hr => same.members _ _ _ ?_
          have := length_skipBlanks r
          omega
      all_goals rfl
    · unfold scanElems
      split
      · rfl
      · rename_i cs
        have short := length_skipBlanks cs
        rw [List.length_cons] at hcs
        refine (scans.value _ _).bind_congr (same.value _ _ (by omega)) fun _ r hr => same.elems _ _ ?_
        have := length_skipBlanks r
        omega
      · rfl
    · unfold scanMember
      split
      · rename_i cs
        rw [List.length_cons] at hcs
        refine (Consumes.string fun key r found => ⟨key, found⟩).bind_congr rfl fun key r hr => ?_
        have short := length_skipBlanks r
        rw [List.length_cons] at hr
        split
        · rename_i rest found
          have shorter := length_skipBlanks rest
          rw [found, List.length_cons] at short
          exact (scans.value _ _).bind_congr (same.value _ _ (by omega)) fun _ _ _ => rfl
        · rfl
      · rfl
    · unfold scanMembers
      split
      · rfl
      · rename_i cs
        have short := length_skipBlanks cs
        rw [List.length_cons] at hcs
        refine (scans.member _ _).bind_congr (same.member _ _ (by omega)) fun _ r hr => same.members _ _ _ ?_
        have := length_skipBlanks r
        omega
      · rfl

/-- The fuel of `scanText` is enough: with more the parser reads the same. -/
theorem scanValue_fuel {fuel d : Nat} {cs : List Char} (h : cs.length < fuel) :
    scanValue hooks fuel d cs = scanValue hooks (cs.length + 1) d cs :=
  ((sameWith hooks h).value d cs (Nat.lt_succ_self _)).symm

end Maru.Json
