import DeviceSettings.Proofs.Yaml.Literal
import DeviceSettings.Proofs.Yaml.Plain
import Mathlib.Logic.Relation

/-!
# Streams inside block collections

A `Block` is what the rest of a text depends on between two tokens: the tokens so far and the columns of the open block
collections.  `Step`s lead from one token to the next (`Reaches`), and a stream that rests after a value (`Rests`) has
the same block whatever possible key it has left to give up.
-/

namespace DeviceSettings.Yaml

open Printer (spaces)

/-- What may follow the blanks at the start of a line, for a token to begin there. -/
def IsStart (cs : List Char) : Prop := ∀ c ∈ cs.head?, isGap c = false ∧ c ≠ '#' ∧ c ≠ byteOrderMark

theorem isStart_nil : IsStart [] := nofun

theorem isStart_cons {c : Char} (h : isGap c = false ∧ c ≠ '#' ∧ c ≠ byteOrderMark) (cs : List Char) :
    IsStart (c :: cs) := by
  rintro d ⟨⟩
  exact h

/-! ## blocks -/

structure Block where
  /-- latest first -/
  tokens : List Token
  indent : Int
  indents : List Int

namespace Block

/-- Outside of all collections. -/
def outer : Block := ⟨[], -1, []⟩

/-- Begins a collection at a column, unless it stands there already. -/
def enter (t : Token) (column : Nat) (b : Block) : Block :=
  if b.indent < column then ⟨t :: b.tokens, column, b.indent :: b.indents⟩ else b

def add (ts : List Token) (b : Block) : Block := { b with tokens := ts.reverse ++ b.tokens }

section
variable {t : Token} {column : Nat} {b : Block}

theorem enter_deeper (h : b.indent < column) :
    b.enter t column = ⟨t :: b.tokens, column, b.indent :: b.indents⟩ := if_pos h

theorem enter_same (h : b.indent = column) : b.enter t column = b := if_neg (by omega)

theorem indent_enter (h : b.indent ≤ column) : (b.enter t column).indent = column := by
  rw [enter]
  split
  · rfl
  · omega

theorem add_add (ts us : List Token) (b : Block) : (b.add ts).add us = b.add (ts ++ us) := by
  simp [add]

end

end Block

namespace Stream

/-- A stream inside a block, with no possible key. -/
def inBlock (b : Block) (p : Point) (allowed : Bool) : Stream :=
  ⟨p, b.tokens, b.tokens.length, b.indent, b.indents, none, [], allowed⟩

/-! ## rounds -/

/-- A stream before its next token. -/
def arrive (s : Stream) : Option Stream :=
  (s.toNext (s.point.rest.length + 1)).dropStale.map fun s => s.outdent s.point.column

/-- One token is read. -/
structure Step (s s' : Stream) : Prop where
  token : ∃ a, s.arrive = some a ∧ a.point.rest ≠ [] ∧ a.token.bind dropStale = some s'
  shorter : s'.point.rest.length < s.point.rest.length

/-- Tokens are read, as many as there are. -/
def Reaches : Stream → Stream → Prop := Relation.ReflTransGen Step

/-- The end of a text is read, and what the tokens are then. -/
def Ends (s : Stream) (ts : List Token) : Prop :=
  ∃ a e e', s.arrive = some a ∧ a.point.rest = [] ∧ a.finish = some e ∧ e.dropStale = some e' ∧ e'.tokens.reverse = ts

theorem readWithin_of_step {s s' : Stream} (h : Step s s') (fuel out : Nat) :
    readWithin (fuel + 1) out s = readWithin fuel s'.released s' := by
  obtain ⟨⟨a, harrive, hrest, htoken⟩, -⟩ := h
  rw [arrive, Option.map_eq_some_iff] at harrive
  obtain ⟨t, hstale, rfl⟩ := harrive
  obtain ⟨u, hu, hdrop⟩ := Option.bind_eq_some_iff.mp htoken
  have hnonempty : (t.outdent t.point.column).point.rest.isEmpty = false := List.isEmpty_eq_false_iff.mpr hrest
  rw [readWithin, hstale]
  simp [hnonempty, hrest, hu, hdrop]

theorem readWithin_of_ends {s : Stream} {ts : List Token} (h : s.Ends ts) (fuel out : Nat) :
    readWithin (fuel + 1) out s = ts := by
  obtain ⟨a, e, e', harrive, hrest, hfinish, hdrop, rfl⟩ := h
  rw [arrive, Option.map_eq_some_iff] at harrive
  obtain ⟨t, hstale, rfl⟩ := harrive
  rw [readWithin, hstale]
  simp [hrest, hfinish, hdrop]

/-- A text that is read to its end has the tokens that are there then. -/
theorem readWithin_of_reaches {s e : Stream} {ts : List Token} (h : Reaches s e) (hend : e.Ends ts) {fuel : Nat}
    (hfuel : s.point.rest.length < fuel) (out : Nat) : readWithin fuel out s = ts := by
  induction h using Relation.ReflTransGen.head_induction_on generalizing fuel out with
  | refl =>
    obtain ⟨fuel, rfl⟩ : ∃ m, fuel = m + 1 := ⟨fuel - 1, by omega⟩
    exact readWithin_of_ends hend fuel out
  | head hstep _ ih =>
    obtain ⟨fuel, rfl⟩ : ∃ m, fuel = m + 1 := ⟨fuel - 1, by omega⟩
    have hshort := hstep.shorter
    rw [readWithin_of_step hstep]
    exact ih (by omega) _

/-! ## between tokens -/

section
variable {s : Stream} {k fuel : Nat} {rest : List Char}

theorem skipWhile_blanks (h : s.point.rest = spaces k ++ rest) (hrest : ∀ c ∈ rest.head?, c ≠ ' ' ∧ c ≠ '\t') :
    s.point.skipWhile (fun c => c == ' ' || ((s.isFlow || !s.keyAllowed) && c == '\t')) = s.point.skip k := by
  have hrun : s.point.skipWhile (fun c => c == ' ' || ((s.isFlow || !s.keyAllowed) && c == '\t')) = _ :=
    Point.skipWhile_run h (fun c hc => by rw [List.eq_of_mem_replicate hc]; rfl)
      (fun c hc => by simp [(hrest c hc).1, (hrest c hc).2])
  rwa [length_spaces] at hrun

/-- Spaces before a token. -/
theorem toNext_spaces (h : s.point.rest = spaces k ++ rest) (hrest : IsStart rest) :
    s.toNext (fuel + 1) = { s with point := s.point.skip k } := by
  have hmark : ¬(decide (s.point.column = 0) && decide (s.point.rest.head? = some byteOrderMark)) = true := by
    rw [Bool.and_eq_true, decide_eq_true_eq, decide_eq_true_eq, h]
    rintro ⟨-, hhead⟩
    cases k with
    | zero => exact (hrest _ hhead).2.2 rfl
    | succ k => exact absurd (Option.some.inj hhead) (by decide)
  have hskip := skipWhile_blanks h fun c hc => by
    refine ⟨ne_space_of_isGap (hrest c hc).1, ?_⟩
    rintro rfl
    exact absurd (hrest _ hc).1 (by decide)
  have hcomment : (s.point.skip k).skipComment = s.point.skip k := by
    rw [Point.skipComment, rest_skip_spaces h]
    exact if_neg fun hhead => (hrest _ hhead).2.1 rfl
  unfold toNext
  dsimp only
  rw [if_neg hmark, hskip, hcomment, rest_skip_spaces h]
  cases rest with
  | nil => rfl
  | cons c rest =>
    dsimp only
    rw [isBreak_eq_false_of_isGap (hrest c rfl).1, if_neg Bool.false_ne_true]

/-- The end of a line, and spaces before a token on the next one. -/
theorem toNext_line (h : s.point.rest = '\n' :: (spaces k ++ rest)) (hrest : IsStart rest) :
    s.toNext (fuel + 2) =
      { s with point := s.point.afterBreaks 1 k rest, keyAllowed := s.keyAllowed || !s.isFlow } := by
  have hmark : ¬(decide (s.point.column = 0) && decide (s.point.rest.head? = some byteOrderMark)) = true := by
    rw [Bool.and_eq_true, decide_eq_true_eq, decide_eq_true_eq, h]
    rintro ⟨-, hhead⟩
    exact absurd (Option.some.inj hhead) (by decide)
  have hskip := skipWhile_blanks (k := 0) h (by rintro c ⟨⟩; decide)
  have hcomment : s.point.skipComment = s.point := by
    rw [Point.skipComment, h]
    exact if_neg (by simp)
  have hnext : s.point.afterBreak.rest = spaces k ++ rest := by rw [Point.afterBreak, h, List.tail_cons]
  unfold toNext
  dsimp only
  rw [if_neg hmark, hskip, Point.skip_zero, hcomment, Point.passBreak_cons h rfl (by decide), h]
  dsimp only
  rw [if_pos (by decide), toNext_spaces hnext hrest]
  dsimp only
  rw [skip_spaces hnext rfl, Point.afterBreaks_afterBreak]

/-! ## keys that are given up -/

/-- Only a key that is required may not be given up. -/
theorem dropStale_eq (hkeys : s.keys = []) (hkey : ∀ k ∈ s.key, k.isStale s.point = true → k.required = false) :
    s.dropStale = some { s with key := s.key.filter fun k => !k.isStale s.point } := by
  obtain ⟨point, tokens, count, indent, indents, key, keys, allowed⟩ := s
  subst hkeys
  cases key with
  | none => rfl
  | some k =>
    by_cases hstale : k.isStale point = true
    · have hrequired := hkey k rfl hstale
      simp [dropStale, settle, hstale, hrequired, Option.filter]
    · simp [dropStale, hstale, Option.filter]

theorem dropStale_none (hkeys : s.keys = []) (hkey : s.key = none) : s.dropStale = some s := by
  rw [dropStale_eq hkeys (by rw [hkey]; nofun), hkey, Option.filter_none, ← hkey]

/-! ## collections that end -/

theorem keys_outdentGo (column : Int) (l : List Int) (s : Stream) : (outdent.go column l s).keys = s.keys := by
  induction l generalizing s with
  | nil => rfl
  | cons outer l ih =>
    rw [outdent.go]
    split
    · exact ih _
    · rfl

/-- Collections right of a column may be ended in two rounds. -/
theorem outdent_outdent {a b : Int} (h : a ≤ b) (s : Stream) : (s.outdent b).outdent a = s.outdent a := by
  have hgo (l : List Int) (s : Stream) (hl : s.indents = l) :
      outdent.go a (outdent.go b l s).indents (outdent.go b l s) = outdent.go a l s := by
    induction l generalizing s with
    | nil => rw [outdent.go, hl]
    | cons outer l ih =>
      by_cases hb : b < s.indent
      · rw [outdent.go, if_pos hb, outdent.go, if_pos (Int.lt_of_le_of_lt h hb), ih _ rfl]
      · rw [outdent.go, if_neg hb, hl]
  by_cases hflow : s.isFlow = true
  · have hstay : s.outdent b = s := if_pos hflow
    rw [hstay]
  · have hflow' : ¬(outdent.go b s.indents s).isFlow = true := by
      rw [isFlow, keys_outdentGo]
      exact hflow
    rw [outdent, outdent, outdent, if_neg hflow, if_neg hflow, if_neg hflow', hgo _ s rfl]

theorem outdent_stay {a : Int} (h : s.indent ≤ a) : s.outdent a = s := by
  have hgo (l : List Int) : outdent.go a l s = s := by
    cases l with
    | nil => rfl
    | cons outer l => rw [outdent.go, if_neg (Int.not_lt.mpr h)]
  rw [outdent, hgo, ite_self]

theorem outdent_inBlock {a : Int} {b : Block} {p : Point} {allowed : Bool} (h : b.indent ≤ a) :
    (inBlock b p allowed).outdent a = inBlock b p allowed := outdent_stay h

/-- The end of the innermost collection. -/
theorem outdent_enter {t : Token} {column : Nat} {b : Block} {ts : List Token} {p : Point} {allowed : Bool}
    (h : b.indent < column) :
    (inBlock ((b.enter t column).add ts) p allowed).outdent b.indent
      = inBlock (b.add (t :: ts ++ [.blockEnd])) p allowed := by
  have hpush : ({ (inBlock ((b.enter t column).add ts) p allowed).push .blockEnd with
      indent := b.indent, indents := b.indents } : Stream) = inBlock (b.add (t :: ts ++ [.blockEnd])) p allowed := by
    rw [Block.enter_deeper h]
    simp [inBlock, push, Block.add]
  have hstay : (inBlock (b.add (t :: ts ++ [.blockEnd])) p allowed).outdent b.indent = _ :=
    outdent_inBlock (Int.le_refl _)
  rw [← hstay, ← hpush, Block.enter_deeper h]
  show (if b.indent < column then _ else _) = _
  rw [if_pos h]
  rfl

/-! ## arriving at tokens -/

section
variable {b : Block} {p : Point} {allowed : Bool}

/-- A token on the same line. -/
theorem arrive_spaces (h : p.rest = spaces k ++ rest) (hrest : IsStart rest) (hcolumn : b.indent ≤ p.column + k) :
    (inBlock b p allowed).arrive = some (inBlock b (p.skip k) allowed) := by
  have hnext : (inBlock b p allowed).toNext (p.rest.length + 1) = inBlock b (p.skip k) allowed := toNext_spaces h hrest
  show (((inBlock b p allowed).toNext (p.rest.length + 1)).dropStale).map _ = _
  rw [hnext, dropStale_none rfl rfl]
  exact congrArg some (outdent_inBlock hcolumn)

/-- A token on the next line. -/
theorem arrive_line (h : p.rest = '\n' :: (spaces k ++ rest)) (hrest : IsStart rest) (hcolumn : b.indent ≤ k) :
    (inBlock b p allowed).arrive = some (inBlock b (p.afterBreaks 1 k rest) true) := by
  have hnext : (inBlock b p allowed).toNext (p.rest.length + 1) = inBlock b (p.afterBreaks 1 k rest) true := by
    rw [h, List.length_cons, toNext_line h hrest]
    simp [inBlock, isFlow]
  show (((inBlock b p allowed).toNext (p.rest.length + 1)).dropStale).map _ = _
  rw [hnext, dropStale_none rfl rfl]
  exact congrArg some (outdent_inBlock hcolumn)

end

end

/-! ## streams at rest -/

/-- The next token of a stream stands at a point in a block. -/
structure Arrives (s : Stream) (b : Block) (p : Point) (allowed : Bool) : Prop where
  arrive : s.arrive = some (inBlock b p allowed)
  length : p.rest.length ≤ s.point.rest.length

/-- A value was read, and `rest` is what follows after `k` spaces; collections right of the block may be open still. -/
structure Rests (s : Stream) (b : Block) (k : Nat) (rest : List Char) : Prop where
  settles : ∃ t, (s.toNext (s.point.rest.length + 1)).dropStale = some t ∧ t.point.rest = rest ∧ t.point.column = k ∧
    t.outdent b.indent = inBlock b t.point true
  length : rest.length ≤ s.point.rest.length

section
variable {s : Stream} {b : Block} {p : Point} {k column : Nat} {t : Token} {ts : List Token} {rest : List Char}
  {allowed : Bool}

theorem Arrives.step {a : Stream} (h : Arrives s b p allowed) (hrest : p.rest ≠ [])
    (htoken : (inBlock b p allowed).token.bind dropStale = some a) (hshort : a.point.rest.length < p.rest.length) :
    Step s a :=
  ⟨⟨_, h.arrive, hrest, htoken⟩, Nat.lt_of_lt_of_le hshort h.length⟩

theorem arrives_spaces (h : p.rest = spaces k ++ rest) (hrest : IsStart rest) (hcolumn : b.indent ≤ p.column + k) :
    Arrives (inBlock b p allowed) b (p.skip k) allowed := by
  refine ⟨arrive_spaces h hrest hcolumn, ?_⟩
  show (p.skip k).rest.length ≤ p.rest.length
  rw [rest_skip_spaces h, h, List.length_append]
  omega

theorem arrives_line (h : p.rest = '\n' :: (spaces k ++ rest)) (hrest : IsStart rest) (hcolumn : b.indent ≤ k) :
    Arrives (inBlock b p allowed) b (p.afterBreaks 1 k rest) true := by
  refine ⟨arrive_line h hrest hcolumn, ?_⟩
  show rest.length ≤ p.rest.length
  rw [h, List.length_cons, List.length_append]
  omega

theorem Rests.arrives (h : Rests s b k rest) (hcolumn : b.indent = k) :
    ∃ p, Arrives s b p true ∧ p.rest = rest ∧ p.column = k := by
  obtain ⟨⟨t, hsettle, rfl, rfl, hout⟩, hlen⟩ := h
  refine ⟨t.point, ⟨?_, hlen⟩, rfl, rfl⟩
  rw [arrive, hsettle, Option.map_some, ← hcolumn, hout]

/-- The innermost collection ends where a stream rests left of it. -/
theorem Rests.leave (h : Rests s ((b.enter t column).add ts) k rest) (hdeeper : b.indent < column) :
    Rests s (b.add (t :: ts ++ [.blockEnd])) k rest := by
  obtain ⟨⟨u, hsettle, hrest, hcolumn, hout⟩, hlen⟩ := h
  refine ⟨⟨u, hsettle, hrest, hcolumn, ?_⟩, hlen⟩
  have hinner : ((b.enter t column).add ts).indent = column := Block.indent_enter (Int.le_of_lt hdeeper)
  rw [hinner] at hout
  show u.outdent b.indent = _
  rw [← outdent_outdent (Int.le_of_lt hdeeper), hout, outdent_enter hdeeper]

/-- The end of a text, after the entries of its map. -/
theorem Rests.ends (h : Rests s ((Block.outer.enter t 0).add ts) 0 []) :
    s.Ends (t :: ts ++ [.blockEnd, .streamEnd]) := by
  obtain ⟨⟨u, hsettle, hrest, hcolumn, hout⟩, -⟩ := h
  have hinner : ((Block.outer.enter t 0).add ts).indent = 0 := rfl
  have harrive : s.arrive = some (inBlock ((Block.outer.enter t 0).add ts) u.point true) := by
    rw [arrive, hsettle, Option.map_some, hcolumn, ← hout]
    rfl
  have hmargin : (inBlock ((Block.outer.enter t 0).add ts) u.point true).outdent (-1) = _ :=
    outdent_enter (b := Block.outer) (by decide)
  have hfinish : (inBlock ((Block.outer.enter t 0).add ts) u.point true).finish
      = some ((inBlock (Block.outer.add (t :: ts ++ [.blockEnd])) u.point false).push .streamEnd) := by
    unfold finish atMargin
    dsimp only
    rw [show (inBlock ((Block.outer.enter t 0).add ts) u.point true).point = u.point from rfl, if_pos hcolumn]
    show ((((inBlock _ u.point true).outdent (-1)).dropKey.bind _).map _) = _
    rw [hmargin]
    rfl
  refine ⟨_, _, _, harrive, hrest, hfinish, dropStale_none rfl rfl, ?_⟩
  simp [push, inBlock, Block.add, Block.outer]

end

end Stream

end DeviceSettings.Yaml
