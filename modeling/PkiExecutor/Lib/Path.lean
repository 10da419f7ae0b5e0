/-
# `PkiExecutor.Lib.Path` — lexical resolution of paths

A path is a list of moves from the root: stay (`.` and the empty piece between
two separators), go up (`..`, which at the root stays), or go into a name.
`resolve` is where the moves end, as the list of names from the root; symbolic
links do not exist at this level.

Two ways to see that a path ends beneath a directory:

* a path that never goes up resolves to its names (`resolve_of_noUp`), so a
  prefix that ends in a separator is the directory itself (`normalise_append`);
* in general two counters suffice (`beneath_iff_depth`): how much of the
  directory the walk currently shares, and how many names it is beyond that.
-/
import Mathlib.Data.List.Infix
import Mathlib.Tactic.Common

namespace PkiExecutor.Path

/-- One piece of a path. -/
inductive Move (σ : Type)
  | stay
  | up
  | into (name : σ)
  deriving DecidableEq, Repr

section Resolve

variable {σ : Type}

/-- The directory after a move, innermost name first. -/
def walk (stack : List σ) : Move σ → List σ
  | .stay => stack
  | .up => stack.tail
  | .into n => n :: stack

/-- Where a list of moves leads from the root. -/
def resolve (ms : List (Move σ)) : List σ := (ms.foldl walk []).reverse

/-- `p` is strictly below the directory `dir`. -/
def Beneath (dir p : List σ) : Prop := dir <+: p ∧ dir ≠ p

/-- The names a list of moves mentions. -/
def names : List (Move σ) → List σ
  | [] => []
  | .into n :: ms => n :: names ms
  | _ :: ms => names ms

@[simp] theorem names_append (ms ns : List (Move σ)) :
    names (ms ++ ns) = names ms ++ names ns := by
  induction ms with
  | nil => rfl
  | cons m ms ih => cases m <;> simp [names, ih]

theorem foldl_walk_of_noUp : ∀ (ms : List (Move σ)) (stack : List σ), .up ∉ ms →
    ms.foldl walk stack = (names ms).reverse ++ stack
  | [], _, _ => rfl
  | .stay :: ms, stack, h => foldl_walk_of_noUp ms stack (fun hm => h (List.mem_cons_of_mem _ hm))
  | .up :: _, _, h => absurd List.mem_cons_self h
  | .into n :: ms, stack, h => by
      have ih := foldl_walk_of_noUp ms (n :: stack) (fun hm => h (List.mem_cons_of_mem _ hm))
      simp [walk, names, ih]

theorem resolve_of_noUp {ms : List (Move σ)} (h : .up ∉ ms) : resolve ms = names ms := by
  simp [resolve, foldl_walk_of_noUp ms [] h]

/-! ## Two counters

`shared` levels of `dir` are on the way to the current directory, which is
`extra` names beyond the last of them. -/

/-- How far a walk is in a directory: the names it shares with it, and those beyond. -/
structure Depth where
  shared : Nat
  extra : Nat
  deriving DecidableEq, Repr

variable [DecidableEq σ]

def Depth.walk (dir : List σ) (d : Depth) : Move σ → Depth
  | .stay => d
  | .up => if d.extra = 0 then ⟨d.shared - 1, 0⟩ else ⟨d.shared, d.extra - 1⟩
  | .into n =>
      if d.extra = 0 ∧ dir[d.shared]? = some n then ⟨d.shared + 1, 0⟩ else ⟨d.shared, d.extra + 1⟩

/-- The counters at the end of a list of moves. -/
def depth (dir : List σ) (ms : List (Move σ)) : Depth := ms.foldl (Depth.walk dir) ⟨0, 0⟩

/-- What the counters say about the current directory; `beyond` are the names
past the shared ones, innermost first. -/
structure Depth.Counts (dir : List σ) (d : Depth) (stack beyond : List σ) : Prop where
  stack_eq : stack = beyond ++ (dir.take d.shared).reverse
  extra_eq : beyond.length = d.extra
  shared_le : d.shared ≤ dir.length
  /-- `shared` is as large as it can be. -/
  departs : ∀ n, beyond.getLast? = some n → dir[d.shared]? ≠ some n

theorem Depth.counts_walk {dir : List σ} {d : Depth} {stack beyond : List σ}
    (h : d.Counts dir stack beyond) (m : Move σ) :
    ∃ beyond', (d.walk dir m).Counts dir (Path.walk stack m) beyond' := by
  obtain ⟨hstack, hextra, hshared, hdep⟩ := h
  cases m with
  | stay => exact ⟨beyond, hstack, hextra, hshared, hdep⟩
  | up =>
      cases beyond with
      | nil =>
          have h0 : d.extra = 0 := by simpa using hextra.symm
          refine ⟨[], ?_, ?_, ?_, fun n hn => by simp at hn⟩
          · simp only [Depth.walk, if_pos h0, Path.walk, hstack, List.nil_append]
            have hmin : min ((dir.take d.shared).length - 1) d.shared = d.shared - 1 := by
              rw [List.length_take]; omega
            rw [List.tail_reverse, List.dropLast_eq_take, List.take_take, hmin]
          · simp [Depth.walk, h0]
          · simp only [Depth.walk, if_pos h0]; omega
      | cons b beyond =>
          have h0 : d.extra ≠ 0 := by rw [← hextra]; simp
          refine ⟨beyond, ?_, ?_, ?_, ?_⟩
          · simp [Depth.walk, h0, Path.walk, hstack]
          · simp only [Depth.walk, if_neg h0]
            simp [← hextra]
          · simpa [Depth.walk, h0] using hshared
          · intro n hn
            have hn' : (b :: beyond).getLast? = some n := by
              cases beyond with
              | nil => simp at hn
              | cons c cs => simpa using hn
            simpa [Depth.walk, h0] using hdep n hn'
  | into n =>
      by_cases hn : d.extra = 0 ∧ dir[d.shared]? = some n
      · have hb : beyond = [] := List.length_eq_zero_iff.mp (hextra.trans hn.1)
        subst hb
        refine ⟨[], ?_, ?_, ?_, fun n hn => by simp at hn⟩
        · simp [Depth.walk, hn, Path.walk, hstack, List.take_add_one]
        · simp [Depth.walk, hn]
        · have hlt : d.shared < dir.length := (List.getElem?_eq_some_iff.mp hn.2).1
          simp only [Depth.walk, if_pos hn]
          exact hlt
      · refine ⟨n :: beyond, ?_, ?_, ?_, ?_⟩
        · simp [Depth.walk, hn, Path.walk, hstack]
        · simp [Depth.walk, hn, hextra]
        · simpa [Depth.walk, hn] using hshared
        · intro x hx
          simp only [Depth.walk, if_neg hn]
          cases beyond with
          | nil =>
              obtain rfl : n = x := by simpa using hx
              intro hd
              exact hn ⟨by simpa using hextra.symm, hd⟩
          | cons c cs => exact hdep x (by simpa using hx)

theorem Depth.counts_foldl {dir : List σ} : ∀ (ms : List (Move σ)) {d : Depth}
    {stack beyond : List σ}, d.Counts dir stack beyond →
    ∃ beyond', (ms.foldl (Depth.walk dir) d).Counts dir (ms.foldl Path.walk stack) beyond'
  | [], _, _, beyond, h => ⟨beyond, h⟩
  | m :: ms, _, _, _, h => by
      obtain ⟨_, h'⟩ := Depth.counts_walk h m
      exact Depth.counts_foldl ms h'

/-- The walk ends beneath `dir` exactly if it shares all of `dir` and is beyond
it by at least one name. -/
theorem beneath_iff_depth (dir : List σ) (ms : List (Move σ)) :
    Beneath dir (resolve ms) ↔
      (depth dir ms).shared = dir.length ∧ 0 < (depth dir ms).extra := by
  have hroot : Depth.Counts dir ⟨0, 0⟩ [] [] := ⟨by simp, rfl, Nat.zero_le _, by simp⟩
  obtain ⟨beyond, hstack, hextra, hshared, hdep⟩ := Depth.counts_foldl ms hroot
  have hres : resolve ms = dir.take (depth dir ms).shared ++ beyond.reverse := by
    rw [resolve, hstack]; simp [depth]
  change (depth dir ms).shared ≤ dir.length at hshared
  change beyond.length = (depth dir ms).extra at hextra
  constructor
  · rintro ⟨hpre, hne⟩
    have hfull : (depth dir ms).shared = dir.length := by
      by_contra hlt
      have hlt : (depth dir ms).shared < dir.length := by omega
      obtain ⟨r, hr⟩ := hpre
      have hat : (dir ++ r)[(depth dir ms).shared]? = dir[(depth dir ms).shared]? :=
        List.getElem?_append_left hlt
      rw [hr, hres, List.getElem?_append_right (by rw [List.length_take]; omega),
        List.length_take,
        Nat.min_eq_left hshared, Nat.sub_self, ← List.head?_eq_getElem?, List.head?_reverse] at hat
      cases hlast : beyond.getLast? with
      | none => rw [hlast, List.getElem?_eq_getElem hlt] at hat; simp at hat
      | some n => exact hdep n hlast (by rw [← hlast]; exact hat.symm)
    refine ⟨hfull, Nat.pos_of_ne_zero fun h0 => hne ?_⟩
    rw [hres, hfull, List.take_length, List.length_eq_zero_iff.mp (hextra.trans h0)]
    simp
  · rintro ⟨hfull, hpos⟩
    rw [hres, hfull, List.take_length]
    refine ⟨List.prefix_append _ _, fun h => ?_⟩
    have : beyond.reverse = [] := by simpa using h.symm
    have : beyond.length = 0 := by simpa using congrArg List.length this
    omega

end Resolve

/-! ## Path texts -/

/-- What a piece of a path text does. -/
def move (piece : List Char) : Move (List Char) :=
  if piece = [] ∨ piece = ['.'] then .stay
  else if piece = ['.', '.'] then .up
  else .into piece

/-- A path text over the separator `sep`, as moves. -/
def moves (sep : Char) (p : String) : List (Move (List Char)) := (p.toList.splitOn sep).map move

/-- The lexical normalisation of a path text, as names from the root. -/
def normalise (sep : Char) (p : String) : List (List Char) := resolve (moves sep p)

theorem infix_intercalate {α : Type} (sep : List α) {piece : List α} :
    ∀ {pieces : List (List α)}, piece ∈ pieces → piece <:+: sep.intercalate pieces
  | [a], h => by
      obtain rfl : piece = a := List.mem_singleton.mp h
      simp
  | a :: b :: rest, h => by
      rw [List.intercalate_cons_cons]
      rcases List.mem_cons.mp h with rfl | h
      · exact ⟨[], sep ++ sep.intercalate (b :: rest), by simp⟩
      · exact (infix_intercalate sep h).trans ⟨a ++ sep, [], by simp⟩

theorem up_mem_moves {sep : Char} {p : String} (h : .up ∈ moves sep p) :
    "..".toList <:+: p.toList := by
  obtain ⟨piece, hp, hm⟩ := List.mem_map.mp h
  have hpiece : piece = ['.', '.'] := by
    unfold move at hm
    split at hm
    · cases hm
    · split at hm
      · assumption
      · cases hm
  have hinf := infix_intercalate [sep] hp
  rw [List.intercalate_splitOn, hpiece] at hinf
  exact hinf

theorem normalise_of_noDotDot {sep : Char} {p : String} (h : ¬ "..".toList <:+: p.toList) :
    normalise sep p = names (moves sep p) :=
  resolve_of_noUp fun hu => h (up_mem_moves hu)

theorem names_moves_append (sep : Char) {p : String} {a b : List Char}
    (h : p.toList = a ++ sep :: b) :
    names (moves sep p) =
      names (moves sep (String.ofList a)) ++ names (moves sep (String.ofList b)) := by
  simp [moves, h, List.splitOn_append_cons_self]

/-- A text that continues a directory's text past its last separator has the
directory's names first. -/
theorem names_moves_prefix {sep : Char} {dir p : String} (h : dir.toList <+: p.toList)
    (hs : dir.toList.getLast? = some sep) :
    names (moves sep dir) <+: names (moves sep p) := by
  obtain ⟨a, ha⟩ := List.getLast?_eq_some_iff.mp hs
  obtain ⟨b, hb⟩ := h
  have hp : p.toList = a ++ sep :: b := by rw [← hb, ha]; simp
  rw [names_moves_append sep hp, names_moves_append sep ha]
  have hnil : names (moves sep (String.ofList [])) = [] := by simp [moves, move, names]
  rw [hnil, List.append_nil]
  exact List.prefix_append _ _

/-! ## Case folding

A renaming of characters that leaves the separator and the dot alone renames the
names. -/

section Fold

variable {sep : Char} {f : Char → Char}

theorem splitOn_map (hsep : ∀ c, f c = sep ↔ c = sep) : ∀ l : List Char,
    (l.map f).splitOn sep = (l.splitOn sep).map (List.map f)
  | [] => rfl
  | c :: l => by
      rw [List.map_cons, List.splitOn_cons_eq_if_modifyHead, List.splitOn_cons_eq_if_modifyHead,
        splitOn_map hsep l]
      by_cases hc : c = sep
      · simp [hc, (hsep sep).mpr rfl]
      · have hf : f c ≠ sep := fun h => hc ((hsep c).mp h)
        cases l.splitOn sep <;> simp [hc, hf]

theorem move_map (hdot : ∀ c, f c = '.' ↔ c = '.') (piece : List Char) :
    names [move (piece.map f)] = (names [move piece]).map (List.map f) := by
  have h1 : piece.map f = ['.'] ↔ piece = ['.'] := by
    cases piece with
    | nil => simp
    | cons c cs => simp [hdot]
  have h2 : piece.map f = ['.', '.'] ↔ piece = ['.', '.'] := by
    rcases piece with _ | ⟨c, _ | ⟨d, cs⟩⟩ <;> simp [hdot]
  unfold move
  simp only [List.map_eq_nil_iff, h1, h2]
  split
  · rfl
  · split <;> rfl

theorem names_cons (m : Move (List Char)) (ms : List (Move (List Char))) :
    names (m :: ms) = names [m] ++ names ms := names_append [m] ms

theorem names_map_move (hdot : ∀ c, f c = '.' ↔ c = '.') : ∀ pieces : List (List Char),
    names ((pieces.map (List.map f)).map move) = (names (pieces.map move)).map (List.map f)
  | [] => rfl
  | piece :: pieces => by
      rw [List.map_cons, List.map_cons, List.map_cons, names_cons, names_cons (move piece),
        names_map_move hdot pieces, move_map hdot piece, List.map_append]

end Fold

end PkiExecutor.Path
