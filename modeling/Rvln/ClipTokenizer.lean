/-
# The CLIP tokenizer

`clipTokenizer.ts` and its sibling `clip_tokenizer.dart`: byte pair encoding with the
merge list of a vocabulary file.  The ports differ in how they split the file into lines,
how they take a pair apart and where the search for the best rank starts (`Port`).

* `loop_total` : the merges of a word come to an end, in a state that `Merged` describes:
  the pieces are the word, none of them can be merged, and all of them have an id;
* `tokenize_contract` : the 77 ids of a text, whatever the vocabulary file holds.

A pair is one string, its two pieces with a blank between them, in the ranks as in the
code; no piece holds a blank, so it can be taken apart again.
-/
import Mathlib.Data.List.Forall2
import Mathlib.Data.List.Induction
import Mathlib.Logic.Function.Basic
import Mathlib.Order.WithBot
import Rvln.ClipWords

namespace ClipTokenizer

/-! ## The vocabulary -/

/-- The two ports. -/
inductive Port
  | typescript
  | dart
  deriving DecidableEq

/-- `</w>`. -/
def END_OF_WORD : String := "</w>"

/-- `OmniVlaConfig.clipContextLength`. -/
def CONTEXT_LENGTH : ℕ := 77

/-- `numMerges`. -/
def NUM_MERGES : ℕ := 49152 - 256 - 2 + 1 - 1

/-- `LineSplitter().convert`, behind the beginning of a line. -/
def splitLines (line : Str) : Str → List Str
  | [] => if line = [] then [] else [line]
  | 13 :: 10 :: rest => line :: splitLines [] rest
  | c :: rest =>
      if c = 10 ∨ c = 13 then line :: splitLines [] rest else splitLines (line ++ [c]) rest

namespace Port

/-- The lines of the vocabulary file. -/
def lines : Port → Str → List Str
  | typescript, text => text.splitOn 10
  | dart, text => splitLines [] text

/-- `merges`. -/
def merges (port : Port) (text : Str) : List Str := ((port.lines text).drop 1).take NUM_MERGES

/-- Where `bestRank` starts. -/
def worstRank : Port → WithTop ℕ
  | typescript => ⊤
  | dart => WithTop.some (1 <<< 30)

/-- The two pieces of a pair. -/
def halves : Port → Str → Str × Str
  | typescript, pair => (pair.takeWhile (· ≠ 32), (pair.dropWhile (· ≠ 32)).drop 1)
  | dart, pair => ((pair.splitOn 32).getD 0 [], (pair.splitOn 32).getD 1 [])

end Port

/-- A map after `map.set(keys[i], i)` for each key in turn. -/
def setAll (keys : List Str) : Str → Option ℕ :=
  keys.zipIdx.foldl (fun m e => Function.update m e.1 (some e.2)) fun _ => none

/-- The characters for the bytes, in the order of the map. -/
def byteValues : List ℕ := bytesToUnicode.map Prod.snd

/-- `vocab`. -/
def vocab (merges : List Str) : List Str :=
  (byteValues.map fun v => [v]) ++ (byteValues.map fun v => v :: units END_OF_WORD) ++
    (merges.map fun m => (m.splitOn 32).flatten) ++ [units STARTOFTEXT, units ENDOFTEXT]

/-- `encoder`. -/
def encoder (merges : List Str) : Str → Option ℕ := setAll (vocab merges)

/-- `bpeRanks`. -/
def bpeRanks (merges : List Str) : Str → Option ℕ := setAll merges

/-! ## The merges of a word -/

/-- A pair as a key of the ranks. -/
def pair (a b : Str) : Str := a ++ 32 :: b

/-- `getPairs`. -/
def getPairs (word : List Str) : List Str := (List.zipWith pair word word.tail).eraseDups

/-- The body of the loop for the best pair, `best` and `bestRank` before and after. -/
def better (merges : List Str) (best : Option Str × WithTop ℕ) (p : Str) :
    Option Str × WithTop ℕ :=
  match bpeRanks merges p with
  | some r => if WithTop.some r < best.2 then (some p, WithTop.some r) else best
  | none => best

/-- The loop over the pairs for the best one. -/
def bestPair (port : Port) (merges pairs : List Str) : Option Str :=
  (pairs.foldl (better merges) (none, port.worstRank)).1

/-- The loop that rebuilds the word, from one index on. -/
def replacePair (first second : Str) (rest : List Str) : List Str :=
  match _h : rest.dropWhile (· ≠ first) with
  -- `indexOf` finds no further occurrence
  | [] => rest
  | [w] => rest.takeWhile (· ≠ first) ++ [w]
  | w :: s :: after =>
      rest.takeWhile (· ≠ first) ++
        if s = second then (first ++ second) :: replacePair first second after
        else w :: replacePair first second (s :: after)
termination_by rest.length
decreasing_by
  all_goals
    have hle := (List.dropWhile_suffix (l := rest) (· ≠ first)).length_le
    rw [_h] at hle
    simp only [List.length_cons] at hle ⊢
    omega

/-- The loop over the merges, with a bound for its rounds. -/
def loop (port : Port) (merges : List Str) : ℕ → List Str → Option (List Str)
  | 0, _ => none
  | rounds + 1, word =>
      match bestPair port merges (getPairs word) with
      | none => some word
      | some best =>
          let (first, second) := port.halves best
          let word := replacePair first second word
          if word.length = 1 then some word else loop port merges rounds word

/-- The characters of a token, the last one with the end of the word. -/
def spread : Str → List Str
  | [] => []
  | [c] => [c :: units END_OF_WORD]
  | c :: d :: token => [c] :: spread (d :: token)

/-- `bpe`, for a token that is not in the cache. -/
def merge (port : Port) (merges : List Str) (token : Str) : Option Str :=
  let word := spread token
  if getPairs word = [] then some (token ++ units END_OF_WORD)
  else (loop port merges word.length word).map fun word => [32].intercalate word

/-! ## The tokenizer -/

end ClipTokenizer

/-- A tokenizer that is built from a vocabulary file: the ids of its marks, and the words
merged before. -/
structure ClipTokenizer (port : ClipTokenizer.Port) (text : ClipTokenizer.Str) where
  sot : ℕ
  eot : ℕ
  cache : List (ClipTokenizer.Str × ClipTokenizer.Str)
  sot_eq : ClipTokenizer.encoder (port.merges text)
    (ClipTokenizer.units ClipTokenizer.STARTOFTEXT) = some sot
  eot_eq : ClipTokenizer.encoder (port.merges text)
    (ClipTokenizer.units ClipTokenizer.ENDOFTEXT) = some eot
  cached : ∀ e ∈ cache, ClipTokenizer.merge port (port.merges text) e.1 = some e.2

namespace ClipTokenizer

/-- `buildFromText`, or the error that a mark is missing. -/
def buildFromText (port : Port) (text : Str) : Option (ClipTokenizer port text) :=
  match hsot : encoder (port.merges text) (units STARTOFTEXT),
    heot : encoder (port.merges text) (units ENDOFTEXT) with
  | some sot, some eot => some ⟨sot, eot, [], hsot, heot, nofun⟩
  | _, _ => none

variable {port : Port} {text : Str}

/-- `bpe`: the tokenizer with its cache, and the pieces with blanks between them. -/
def bpe (t : ClipTokenizer port text) (token : Str) : Option (ClipTokenizer port text × Str) :=
  match t.cache.lookup token with
  | some cached => some (t, cached)
  | none =>
      if token = [] then some (t, token)
      else
        match h : merge port (port.merges text) token with
        | none => none
        | some res => some ({ t with
            cache := (token, res) :: t.cache
            cached := List.forall_mem_cons.mpr ⟨h, t.cached⟩ }, res)

/-- The ids of one more word. -/
def pushWord (s : ClipTokenizer port text × List ℕ) (word : List CodePoint) :
    Option (ClipTokenizer port text × List ℕ) :=
  (s.1.bpe (mapped word)).map fun r =>
    (r.1, s.2 ++ (r.2.splitOn 32).filterMap (encoder (port.merges text)))

/-- The ids with the marks, cut off or filled up to the length of the context. -/
def window (sot eot : ℕ) (ids : List ℕ) : List ℕ :=
  let tokens := sot :: ids ++ [eot]
  if CONTEXT_LENGTH < tokens.length then (tokens.take CONTEXT_LENGTH).set (CONTEXT_LENGTH - 1) eot
  else tokens ++ List.replicate (CONTEXT_LENGTH - tokens.length) 0

/-- `tokenize`. -/
def tokenize (t : ClipTokenizer port text) (U : Unicode) (input : List CodePoint) :
    Option (ClipTokenizer port text × List ℕ) :=
  ((U.words input).foldlM pushWord (t, [])).map fun s => (s.1, window s.1.sot s.1.eot s.2)

/-! ## The maps -/

theorem setAll_append (keys : List Str) (k : Str) :
    setAll (keys ++ [k]) = Function.update (setAll keys) k (some keys.length) := by
  unfold setAll
  rw [List.zipIdx_append, List.foldl_append]
  simp only [List.zipIdx_cons, List.zipIdx_nil, List.foldl_cons, List.foldl_nil, Nat.zero_add]

/-- A key that was set has an index. -/
theorem exists_setAll {keys : List Str} {k : Str} (h : k ∈ keys) :
    (setAll keys k).isSome = true := by
  induction keys using List.reverseRecOn with
  | nil => cases h
  | append_singleton keys last ih =>
      rw [setAll_append]
      by_cases hk : k = last
      · rw [hk, Function.update_self]
        rfl
      · rw [Function.update_of_ne hk]
        rcases List.mem_append.mp h with h | h
        · exact ih h
        · exact absurd (List.mem_singleton.mp h) hk

/-- Its index is one of its own. -/
theorem getElem?_of_setAll {keys : List Str} {k : Str} {i : ℕ} (h : setAll keys k = some i) :
    keys[i]? = some k := by
  induction keys using List.reverseRecOn with
  | nil => cases h
  | append_singleton keys last ih =>
      rw [setAll_append] at h
      by_cases hk : k = last
      · rw [hk, Function.update_self] at h
        cases h
        rw [hk, List.getElem?_concat_length]
      · rw [Function.update_of_ne hk] at h
        have hi := ih h
        obtain ⟨hlt, -⟩ := List.getElem?_eq_some_iff.mp hi
        rw [List.getElem?_append_left hlt, hi]

/-- **No two keys share an index.** -/
theorem setAll_inj {keys : List Str} {k k' : Str} {i : ℕ} (h : setAll keys k = some i)
    (h' : setAll keys k' = some i) : k = k' := by
  have hi := getElem?_of_setAll h
  rw [getElem?_of_setAll h'] at hi
  exact (Option.some.inj hi).symm

theorem mem_of_setAll {keys : List Str} {k : Str} {i : ℕ} (h : setAll keys k = some i) :
    k ∈ keys :=
  List.mem_of_getElem? (getElem?_of_setAll h)

section

variable {merges : List Str}

theorem isSome_encoder {p : Str} (h : p ∈ vocab merges) : (encoder merges p).isSome = true :=
  exists_setAll h

theorem mem_byteValues {b x : ℕ} (h : byteEncoder b = some x) : x ∈ byteValues :=
  List.mem_map.mpr ⟨(b, x), mem_bytesToUnicode h, rfl⟩

variable (merges) in
theorem byte_mem_vocab {x : ℕ} (h : x ∈ byteValues) :
    [x] ∈ vocab merges ∧ x :: units END_OF_WORD ∈ vocab merges := by
  unfold vocab
  simp only [List.mem_append]
  exact ⟨.inl (.inl (.inl (List.mem_map_of_mem h))),
    .inl (.inl (.inr (List.mem_map_of_mem (f := fun v => v :: units END_OF_WORD) h)))⟩

/-- A merge line that is a pair puts the merged pair into the vocabulary. -/
theorem merged_mem_vocab {a b : Str} (h : pair a b ∈ merges) (ha : 32 ∉ a) (hb : 32 ∉ b) :
    a ++ b ∈ vocab merges := by
  have hjoin : ((pair a b).splitOn 32).flatten = a ++ b := by
    unfold pair
    rw [List.splitOn_append_cons_self_of_not_mem ha, List.splitOn_eq_singleton hb]
    simp only [List.flatten_cons, List.flatten_nil, List.append_nil]
  unfold vocab
  simp only [List.mem_append]
  exact .inl (.inr (List.mem_map.mpr ⟨pair a b, h, hjoin⟩))

variable (merges) in
theorem marks_mem_vocab : units STARTOFTEXT ∈ vocab merges ∧ units ENDOFTEXT ∈ vocab merges := by
  unfold vocab
  simp only [List.mem_append]
  exact ⟨.inr List.mem_cons_self, .inr (List.mem_cons_of_mem _ List.mem_cons_self)⟩

end

theorem isSome_buildFromText (port : Port) (text : Str) :
    (buildFromText port text).isSome = true := by
  obtain ⟨hsot, heot⟩ := marks_mem_vocab (port.merges text)
  obtain ⟨sot, hsot⟩ := Option.isSome_iff_exists.mp (isSome_encoder hsot)
  obtain ⟨eot, heot⟩ := Option.isSome_iff_exists.mp (isSome_encoder heot)
  unfold buildFromText
  split
  · rfl
  · rename_i hnone
    exact absurd heot (hnone sot eot hsot)

/-- The rank of a pair is below the start of the search. -/
theorem rank_lt_worst {port : Port} {text p : Str} {r : ℕ}
    (h : bpeRanks (port.merges text) p = some r) : WithTop.some r < port.worstRank := by
  obtain ⟨hlt, -⟩ := List.getElem?_eq_some_iff.mp (getElem?_of_setAll h)
  have hlength : (port.merges text).length ≤ NUM_MERGES := List.length_take_le _ _
  cases port with
  | typescript => exact WithTop.coe_lt_top r
  | dart =>
      have hbound : NUM_MERGES < 1 <<< 30 := by decide
      exact WithTop.coe_lt_coe.mpr (by omega)

/-! ## Pairs -/

theorem mem_getPairs {word : List Str} {p : Str} :
    p ∈ getPairs word ↔ ∃ u a b v, word = u ++ a :: b :: v ∧ p = pair a b := by
  unfold getPairs
  rw [List.mem_eraseDups]
  induction word with
  | nil =>
      refine iff_of_false List.not_mem_nil ?_
      rintro ⟨u, a, b, v, h, -⟩
      exact absurd h.symm (List.append_ne_nil_of_right_ne_nil u (List.cons_ne_nil _ _))
  | cons x word ih =>
      cases word with
      | nil =>
          refine iff_of_false List.not_mem_nil ?_
          rintro ⟨u, a, b, v, h, -⟩
          have hlength := congrArg List.length h
          simp only [List.length_append, List.length_cons, List.length_nil] at hlength
          omega
      | cons y word =>
          show p ∈ pair x y :: List.zipWith pair (y :: word) word ↔ _
          rw [List.mem_cons]
          constructor
          · rintro (rfl | hp)
            · exact ⟨[], x, y, word, rfl, rfl⟩
            · obtain ⟨u, a, b, v, h, rfl⟩ := ih.mp hp
              exact ⟨x :: u, a, b, v, by rw [h]; rfl, rfl⟩
          · rintro ⟨u, a, b, v, h, rfl⟩
            cases u with
            | nil =>
                cases h
                exact .inl rfl
            | cons z u =>
                obtain ⟨-, htail⟩ := List.cons.inj h
                exact .inr (ih.mpr ⟨u, a, b, v, htail, rfl⟩)

/-- A word without pairs is one piece. -/
theorem length_le_one {word : List Str} (h : getPairs word = []) : word.length ≤ 1 := by
  match word with
  | [] => exact Nat.zero_le 1
  | [_] => exact le_rfl
  | a :: b :: word =>
      have hmem : pair a b ∈ getPairs (a :: b :: word) :=
        mem_getPairs.mpr ⟨[], a, b, word, rfl, rfl⟩
      rw [h] at hmem
      cases hmem

section

variable {port : Port} {merges : List Str}
  (hworst : ∀ p r, bpeRanks merges p = some r → WithTop.some r < port.worstRank)

include hworst

/-- **The best pair** is one of the word's and has a rank; if there is none, no pair of the
word has one. -/
theorem foldl_better (pairs : List Str) :
    ((pairs.foldl (better merges) (none, port.worstRank)).1 = none →
      (pairs.foldl (better merges) (none, port.worstRank)).2 = port.worstRank ∧
        ∀ p ∈ pairs, bpeRanks merges p = none) ∧
    ∀ p, (pairs.foldl (better merges) (none, port.worstRank)).1 = some p →
      p ∈ pairs ∧ ∃ r, bpeRanks merges p = some r := by
  induction pairs using List.reverseRecOn with
  | nil => exact ⟨fun _ => ⟨rfl, nofun⟩, nofun⟩
  | append_singleton pairs p ih =>
      obtain ⟨hnone, hsome⟩ := ih
      rw [List.foldl_append, List.foldl_cons, List.foldl_nil]
      generalize pairs.foldl (better merges) (none, port.worstRank) = best at hnone hsome ⊢
      have hkept : ∀ q, best.1 = some q → q ∈ pairs ++ [p] ∧ ∃ r, bpeRanks merges q = some r :=
        fun q hq => ⟨List.mem_append_left [p] (hsome q hq).1, (hsome q hq).2⟩
      unfold better
      cases hp : bpeRanks merges p with
      | none =>
          refine ⟨fun h => ⟨(hnone h).1, fun q hq => ?_⟩, hkept⟩
          rcases List.mem_append.mp hq with hq | hq
          · exact (hnone h).2 q hq
          · rw [List.mem_singleton.mp hq, hp]
      | some r =>
          dsimp only
          by_cases hr : WithTop.some r < best.2
          · rw [if_pos hr]
            refine ⟨nofun, ?_⟩
            rintro _ ⟨⟩
            exact ⟨List.mem_append_right pairs List.mem_cons_self, r, hp⟩
          · rw [if_neg hr]
            -- nothing is found yet, so this rank is better
            exact ⟨fun h => absurd ((hnone h).1 ▸ hworst p r hp) hr, hkept⟩

theorem bestPair_none {pairs : List Str} (h : bestPair port merges pairs = none) :
    ∀ p ∈ pairs, bpeRanks merges p = none :=
  ((foldl_better hworst pairs).1 h).2

theorem bestPair_some {pairs : List Str} {p : Str}
    (h : bestPair port merges pairs = some p) :
    p ∈ pairs ∧ ∃ r, bpeRanks merges p = some r :=
  (foldl_better hworst pairs).2 p h

end

theorem halves_pair (port : Port) {a b : Str} (ha : 32 ∉ a) (hb : 32 ∉ b) :
    port.halves (pair a b) = (a, b) := by
  have htake : ∀ x ∈ a, decide (x ≠ 32) = true := by
    intro x hx
    rw [decide_eq_true_eq]
    rintro rfl
    exact ha hx
  unfold Port.halves pair
  cases port with
  | typescript =>
      dsimp only
      rw [List.takeWhile_append_of_pos htake, List.dropWhile_append_of_pos htake]
      show (a ++ [], b) = (a, b)
      rw [List.append_nil]
  | dart =>
      dsimp only
      rw [List.splitOn_append_cons_self_of_not_mem ha, List.splitOn_eq_singleton hb]
      rfl

/-! ## Joining adjacent pieces -/

/-- Some neighbours `a`, `b` of a list are joined. -/
inductive Joined (a b : Str) : List Str → List Str → Prop
  | nil : Joined a b [] []
  | keep {x : Str} {xs ys : List Str} : Joined a b xs ys → Joined a b (x :: xs) (x :: ys)
  | join {xs ys : List Str} : Joined a b xs ys → Joined a b (a :: b :: xs) ((a ++ b) :: ys)

namespace Joined

variable {a b : Str} {xs ys : List Str}

theorem refl (a b : Str) (xs : List Str) : Joined a b xs xs := by
  induction xs with
  | nil => exact .nil
  | cons x xs ih => exact .keep ih

theorem append_left (h : Joined a b xs ys) (us : List Str) : Joined a b (us ++ xs) (us ++ ys) := by
  induction us with
  | nil => exact h
  | cons u us ih => exact .keep ih

/-- The pieces still spell the same. -/
theorem flatten_eq (h : Joined a b xs ys) : ys.flatten = xs.flatten := by
  induction h with
  | nil => rfl
  | keep _ ih => rw [List.flatten_cons, List.flatten_cons, ih]
  | join _ ih =>
      rw [List.flatten_cons, List.flatten_cons, List.flatten_cons, ih, List.append_assoc]

theorem length_le (h : Joined a b xs ys) : ys.length ≤ xs.length := by
  induction h with
  | nil => exact le_rfl
  | keep _ ih => exact Nat.succ_le_succ ih
  | join _ ih => exact (Nat.succ_le_succ ih).trans (Nat.le_succ _)

theorem mem (h : Joined a b xs ys) {p : Str} (hp : p ∈ ys) : p ∈ xs ∨ p = a ++ b := by
  induction h with
  | nil => exact .inl hp
  | keep _ ih =>
      rcases List.mem_cons.mp hp with rfl | hp
      · exact .inl List.mem_cons_self
      · exact (ih hp).imp (List.mem_cons_of_mem _) id
  | join _ ih =>
      rcases List.mem_cons.mp hp with rfl | hp
      · exact .inr rfl
      · exact (ih hp).imp (fun hmem => List.mem_cons_of_mem _ (List.mem_cons_of_mem _ hmem)) id

/-- The last piece keeps its end. -/
theorem getLast? (h : Joined a b xs ys) {x e : Str} (hx : x ≠ [])
    (hlast : xs.getLast? = some (x ++ e)) : ∃ y, y ≠ [] ∧ ys.getLast? = some (y ++ e) := by
  induction h with
  | nil => cases hlast
  | @keep z xs ys hrest ih =>
      cases xs with
      | nil =>
          cases hrest
          exact ⟨x, hx, hlast⟩
      | cons w xs =>
          rw [List.getLast?_cons_cons] at hlast
          obtain ⟨y, hy, hys⟩ := ih hlast
          exact ⟨y, hy, by rw [List.getLast?_cons, hys]; rfl⟩
  | @join xs ys hrest ih =>
      rw [List.getLast?_cons_cons] at hlast
      cases xs with
      | nil =>
          cases hrest
          cases hlast
          exact ⟨a ++ x, List.append_ne_nil_of_right_ne_nil a hx, by rw [List.append_assoc]; rfl⟩
      | cons w xs =>
          rw [List.getLast?_cons_cons] at hlast
          obtain ⟨y, hy, hys⟩ := ih hlast
          exact ⟨y, hy, by rw [List.getLast?_cons, hys]; rfl⟩

end Joined

section

variable {first second : Str}

/-- What `indexOf` finds, and the pieces before it. -/
theorem of_dropWhile {rest after : List Str} {w : Str}
    (h : rest.dropWhile (· ≠ first) = w :: after) :
    w = first ∧ rest = rest.takeWhile (· ≠ first) ++ first :: after := by
  have hw : w = first := by
    have hnot := List.head?_dropWhile_not (· ≠ first) rest
    rw [h] at hnot
    simpa using hnot
  have hsplit := List.takeWhile_append_dropWhile (p := (· ≠ first)) (l := rest)
  rw [h, hw] at hsplit
  exact ⟨hw, hsplit.symm⟩

theorem not_mem_takeWhile (rest : List Str) : first ∉ rest.takeWhile (· ≠ first) := by
  intro h
  have hne := List.mem_takeWhile_imp h
  rw [decide_eq_true_eq] at hne
  exact hne rfl

theorem joined_replacePair (rest : List Str) :
    Joined first second rest (replacePair first second rest) := by
  induction hn : rest.length using Nat.strong_induction_on generalizing rest with
  | _ n ih =>
      unfold replacePair
      split
      · exact .refl _ _ _
      · rename_i w h
        obtain ⟨rfl, hrest⟩ := of_dropWhile h
        rw [← hrest]
        exact .refl _ _ _
      · rename_i w s after h
        obtain ⟨rfl, hrest⟩ := of_dropWhile h
        have hlength := congrArg List.length hrest
        simp only [List.length_append, List.length_cons] at hlength
        split
        · rename_i hs
          subst hs
          have hjoin := ih after.length (by omega) after rfl
          have hwhole := (Joined.join hjoin).append_left (rest.takeWhile (· ≠ w))
          rw [← hrest] at hwhole
          exact hwhole
        · have hjoin := ih (s :: after).length (by rw [List.length_cons]; omega) (s :: after) rfl
          have hwhole := (Joined.keep (x := w) hjoin).append_left (rest.takeWhile (· ≠ w))
          rw [← hrest] at hwhole
          exact hwhole

/-- A pair of the word does not begin before the first occurrence of its first piece. -/
theorem pair_after_first {u v k t : List Str} (h : u ++ first :: second :: v = k ++ first :: t)
    (hk : first ∉ k) : t = second :: v ∨ ∃ u', t = u' ++ first :: second :: v := by
  rcases List.append_eq_append_iff.mp h.symm with ⟨k', rfl, hk'⟩ | ⟨u', rfl, hu'⟩
  · cases k' with
    | nil =>
        obtain ⟨-, ht⟩ := List.cons.inj hk'
        exact .inl ht
    | cons z k' =>
        obtain ⟨-, ht⟩ := List.cons.inj hk'
        exact .inr ⟨k', ht⟩
  · cases u' with
    | nil =>
        obtain ⟨-, ht⟩ := List.cons.inj hu'
        exact .inl ht.symm
    | cons z u' =>
        obtain ⟨rfl, -⟩ := List.cons.inj hu'
        exact absurd (List.mem_append_right u List.mem_cons_self) hk

/-- **A pair of the word is merged somewhere**, though not always where it was found: the
piece in front of it may take its first piece. -/
theorem length_replacePair_lt {rest u v : List Str} (h : rest = u ++ first :: second :: v) :
    (replacePair first second rest).length < rest.length := by
  induction hn : rest.length using Nat.strong_induction_on generalizing rest u with
  | _ n ih =>
      unfold replacePair
      split
      · rename_i hnone
        have hall := List.dropWhile_eq_nil_iff.mp hnone first
          (h ▸ List.mem_append_right u List.mem_cons_self)
        rw [decide_eq_true_eq] at hall
        exact absurd rfl hall
      · rename_i w hw
        obtain ⟨rfl, hrest⟩ := of_dropWhile hw
        rcases pair_after_first (h.symm.trans hrest) (not_mem_takeWhile rest) with ht | ⟨u', ht⟩
        · cases ht
        · exact absurd ht.symm (List.append_ne_nil_of_right_ne_nil u' (List.cons_ne_nil _ _))
      · rename_i w s after hw
        obtain ⟨rfl, hrest⟩ := of_dropWhile hw
        have hlength := congrArg List.length hrest
        simp only [List.length_append, List.length_cons] at hlength
        split
        · rename_i hs
          have hle : (replacePair w second after).length ≤ after.length :=
            (joined_replacePair after).length_le
          simp only [List.length_append, List.length_cons]
          omega
        · rename_i hs
          rcases pair_after_first (h.symm.trans hrest) (not_mem_takeWhile rest) with ht | ⟨u', ht⟩
          · obtain ⟨rfl, -⟩ := List.cons.inj ht
            exact absurd rfl hs
          · have hlt := ih (s :: after).length (by rw [List.length_cons]; omega) ht rfl
            simp only [List.length_append, List.length_cons] at hlt ⊢
            omega

end

/-! ## The pieces of a word -/

/-- A token in pieces of the vocabulary, with the end of the word behind some character. -/
structure InPieces (merges : List Str) (token : Str) (word : List Str) : Prop where
  concat : word.flatten = token ++ units END_OF_WORD
  known : ∀ p ∈ word, (encoder merges p).isSome = true
  spaceless : ∀ p ∈ word, 32 ∉ p
  glued : ∃ x, x ≠ [] ∧ word.getLast? = some (x ++ units END_OF_WORD)

/-- No two neighbours have a rank. -/
def Unmergeable (merges : List Str) (word : List Str) : Prop :=
  ∀ u a b v, word = u ++ a :: b :: v → bpeRanks merges (pair a b) = none

section

variable {port : Port} {merges : List Str} {token : Str} {word : List Str}

theorem InPieces.ne_nil (h : InPieces merges token word) : word ≠ [] := by
  rintro rfl
  obtain ⟨x, -, hlast⟩ := h.glued
  cases hlast

/-- **A merge keeps the pieces in the vocabulary**: its line is a pair, and the vocabulary
has what the pair makes. -/
theorem InPieces.joined {a b : Str} {word' : List Str} (h : InPieces merges token word)
    (hjoined : Joined a b word word') (hpair : pair a b ∈ merges) (ha : 32 ∉ a) (hb : 32 ∉ b) :
    InPieces merges token word' := by
  refine ⟨hjoined.flatten_eq.trans h.concat, ?_, ?_, ?_⟩
  · intro p hp
    rcases hjoined.mem hp with hp | rfl
    · exact h.known p hp
    · exact isSome_encoder (merged_mem_vocab hpair ha hb)
  · intro p hp
    rcases hjoined.mem hp with hp | rfl
    · exact h.spaceless p hp
    · exact List.not_mem_append ha hb
  · obtain ⟨x, hx, hlast⟩ := h.glued
    exact hjoined.getLast? hx hlast

theorem length_spread (token : Str) : (spread token).length = token.length := by
  induction token with
  | nil => rfl
  | cons c token ih =>
      cases token with
      | nil => rfl
      | cons d token => exact congrArg Nat.succ ih

/-- The characters of a token are pieces of the vocabulary. -/
theorem inPieces_spread (htoken : token ≠ [])
    (hbytes : ∀ x ∈ token, ∃ b < 256, byteEncoder b = some x) :
    InPieces merges token (spread token) := by
  induction token with
  | nil => exact absurd rfl htoken
  | cons c token ih =>
      obtain ⟨b, hb, hc⟩ := hbytes c List.mem_cons_self
      -- no byte is encoded as a blank
      have hblank : 32 ≠ c := (ne_blank_of_byte hc).symm
      obtain ⟨hone, hlast⟩ := byte_mem_vocab merges (mem_byteValues hc)
      cases token with
      | nil =>
          refine ⟨rfl, ?_, ?_, [c], List.cons_ne_nil _ _, rfl⟩
          · intro p hp
            rw [List.mem_singleton.mp hp]
            exact isSome_encoder hlast
          · intro p hp
            rw [List.mem_singleton.mp hp]
            exact List.not_mem_cons_of_ne_of_not_mem hblank (by decide)
      | cons d token =>
          have hrest := ih (List.cons_ne_nil _ _) fun x hx => hbytes x (List.mem_cons_of_mem c hx)
          refine ⟨?_, ?_, ?_, ?_⟩
          · show [c] ++ (spread (d :: token)).flatten = _
            rw [hrest.concat]
            rfl
          · intro p hp
            rcases List.mem_cons.mp hp with rfl | hp
            · exact isSome_encoder hone
            · exact hrest.known p hp
          · intro p hp
            rcases List.mem_cons.mp hp with rfl | hp
            · exact fun hmem => hblank (List.mem_singleton.mp hmem)
            · exact hrest.spaceless p hp
          · obtain ⟨x, hx, hlast⟩ := hrest.glued
            refine ⟨x, hx, ?_⟩
            obtain ⟨q, qs, hq⟩ := List.exists_cons_of_ne_nil hrest.ne_nil
            show ([c] :: spread (d :: token)).getLast? = _
            rw [hq, List.getLast?_cons_cons, ← hq]
            exact hlast

theorem unmergeable_of_length {word : List Str} (h : word.length ≤ 1) :
    Unmergeable merges word := by
  rintro u a b v rfl
  simp only [List.length_append, List.length_cons] at h
  omega

variable (hworst : ∀ p r, bpeRanks merges p = some r → WithTop.some r < port.worstRank)

include hworst in
/-- **The merges come to an end**, since each round shortens the word; and then no
neighbours have a rank. -/
theorem loop_total (h : InPieces merges token word) :
    ∃ pieces, (∀ rounds ≥ word.length, loop port merges rounds word = some pieces) ∧
      InPieces merges token pieces ∧ Unmergeable merges pieces := by
  induction hn : word.length using Nat.strong_induction_on generalizing word with
  | _ n ih =>
      have hpos : 0 < word.length := List.length_pos_iff.mpr h.ne_nil
      cases hbest : bestPair port merges (getPairs word) with
      | none =>
          refine ⟨word, ?_, h, ?_⟩
          · intro rounds hrounds
            obtain ⟨k, rfl⟩ : ∃ k, rounds = k + 1 := ⟨rounds - 1, by omega⟩
            unfold loop
            rw [hbest]
          · intro u a b v hword
            exact bestPair_none hworst hbest _ (mem_getPairs.mpr ⟨u, a, b, v, hword, rfl⟩)
      | some best =>
          obtain ⟨hmem, r, hr⟩ := bestPair_some hworst hbest
          obtain ⟨u, a, b, v, hword, rfl⟩ := mem_getPairs.mp hmem
          have ha : 32 ∉ a := h.spaceless a (by rw [hword]; simp)
          have hb : 32 ∉ b := h.spaceless b (by rw [hword]; simp)
          have hhalves := halves_pair port ha hb
          -- the measure of the induction: a round shortens the word
          have hlt := length_replacePair_lt hword
          have hnext := h.joined (joined_replacePair word) (mem_of_setAll hr) ha hb
          have hround : ∀ k, loop port merges (k + 1) word =
              if (replacePair a b word).length = 1 then some (replacePair a b word)
              else loop port merges k (replacePair a b word) := by
            intro k
            rw [loop, hbest]
            dsimp only
            rw [hhalves]
          by_cases hone : (replacePair a b word).length = 1
          · refine ⟨replacePair a b word, ?_, hnext, unmergeable_of_length hone.le⟩
            intro rounds hrounds
            obtain ⟨k, rfl⟩ : ∃ k, rounds = k + 1 := ⟨rounds - 1, by omega⟩
            rw [hround, if_pos hone]
          · obtain ⟨pieces, hloop, hpieces⟩ := ih _ (hn ▸ hlt) hnext rfl
            refine ⟨pieces, ?_, hpieces⟩
            intro rounds hrounds
            obtain ⟨k, rfl⟩ : ∃ k, rounds = k + 1 := ⟨rounds - 1, by omega⟩
            rw [hround, if_neg hone]
            exact hloop k (by omega)

end

/-- What `bpe` makes of a token. -/
structure Merged (port : Port) (merges : List Str) (token : Str) (pieces : List Str) : Prop
    extends InPieces merges token pieces where
  /-- The loop ends, within as many rounds as the token has characters. -/
  terminates : ∀ rounds ≥ token.length, loop port merges rounds (spread token) = some pieces
  unmergeable : Unmergeable merges pieces

section

variable {port : Port} {text : Str}

variable (port text) in
/-- **Every token is merged.** -/
theorem merge_total {token : Str} (htoken : token ≠ [])
    (hbytes : ∀ x ∈ token, ∃ b < 256, byteEncoder b = some x) :
    ∃ pieces, merge port (port.merges text) token = some ([32].intercalate pieces) ∧
      Merged port (port.merges text) token pieces := by
  have hspread : InPieces (port.merges text) token (spread token) :=
    inPieces_spread htoken hbytes
  have hworst : ∀ p r, bpeRanks (port.merges text) p = some r →
      WithTop.some r < port.worstRank := fun _ _ => rank_lt_worst
  obtain ⟨pieces, hloop, hpieces, hunmergeable⟩ := loop_total hworst hspread
  rw [length_spread] at hloop
  refine ⟨pieces, ?_, hpieces, hloop, hunmergeable⟩
  unfold merge
  dsimp only
  by_cases hpairs : getPairs (spread token) = []
  · -- one character: the loop would leave it as it is
    rw [if_pos hpairs]
    have hlength := length_le_one hpairs
    rw [length_spread] at hlength
    have hone := hloop 1 hlength
    rw [loop, hpairs] at hone
    cases hone
    match token, htoken, hlength with
    | [_], _, _ => rfl
  · rw [if_neg hpairs, length_spread, hloop _ le_rfl]
    rfl

-- the line is a rank for its first word only
example : ["ab", "ba"].map (fun w =>
      merge .dart (Port.dart.merges (units "#version\na b</w>\n")) (units w)) =
    [some (units "ab</w>"), some (units "b a</w>")] := by
  decide +kernel

/-- **`bpe` answers the same, from the cache or not.** -/
theorem bpe_total (t : ClipTokenizer port text) {token : Str} (htoken : token ≠ [])
    (hbytes : ∀ x ∈ token, ∃ b < 256, byteEncoder b = some x) :
    ∃ t' pieces, t.bpe token = some (t', [32].intercalate pieces) ∧
      Merged port (port.merges text) token pieces := by
  obtain ⟨pieces, hmerge, hmerged⟩ := merge_total port text htoken hbytes
  unfold bpe
  cases hcache : t.cache.lookup token with
  | some cached =>
      obtain ⟨u, v, hsplit, -⟩ := List.lookup_eq_some_iff.mp hcache
      have hcached := t.cached (token, cached) (by rw [hsplit]; simp)
      rw [hmerge] at hcached
      cases hcached
      exact ⟨t, pieces, rfl, hmerged⟩
  | none =>
      dsimp only
      rw [if_neg htoken]
      split
      · rename_i hnone
        rw [hmerge] at hnone
        cases hnone
      · rename_i res hres
        have heq := hres
        rw [hmerge] at heq
        cases heq
        exact ⟨_, pieces, rfl, hmerged⟩

/-! ## The ids of a text -/

/-- An id belongs to one piece. -/
theorem eq_of_encoder {merges : List Str} {p q : Str} {i : ℕ} (hp : encoder merges p = some i)
    (hq : encoder merges q = some i) : p = q :=
  setAll_inj hp hq

/-- **No piece of a word is the end mark**: the last piece has the end of the word, and no
word goes on behind an end mark. -/
theorem Merged.ne_endoftext {U : Unicode} {word : List CodePoint} {pieces : List Str}
    {merges : List Str} (h : Merged port merges (mapped word) pieces) (hword : U.Word word) :
    units ENDOFTEXT ∉ pieces := by
  intro hmem
  obtain ⟨u, v, rfl⟩ := List.append_of_mem hmem
  obtain ⟨x, hx, hlast⟩ := h.glued
  have hconcat := h.concat
  rcases List.eq_nil_or_concat' v with rfl | ⟨v, q, rfl⟩
  · rw [List.getLast?_concat] at hlast
    have hlength : (units ENDOFTEXT).length = (x ++ units END_OF_WORD).length :=
      congrArg List.length (Option.some.inj hlast)
    have hdrop : (units ENDOFTEXT).drop 9 = units END_OF_WORD := by
      rw [Option.some.inj hlast]
      rw [List.length_append] at hlength
      have h9 : x.length = 9 := by
        have h13 : (units ENDOFTEXT).length = 13 := by decide
        have h4 : (units END_OF_WORD).length = 4 := by decide
        omega
      rw [← h9, List.drop_left]
    exact absurd hdrop (by decide)
  · have hq : q = x ++ units END_OF_WORD := by
      rw [← List.cons_append, ← List.append_assoc, List.getLast?_concat] at hlast
      exact Option.some.inj hlast
    have hsplit : mapped word = u.flatten ++ (units ENDOFTEXT ++ (v.flatten ++ x)) := by
      rw [hq, List.flatten_append, List.flatten_cons, List.flatten_append] at hconcat
      simp only [List.flatten_cons, List.flatten_nil, List.append_nil,
        ← List.append_assoc] at hconcat
      have hcancel := List.append_cancel_right hconcat
      rw [← hcancel]
      simp only [List.append_assoc]
    have hnil := hword.eq_nil_of_mapped hsplit
    exact hx (List.append_eq_nil_iff.mp hnil).2

theorem not_mem_flatten {U : Unicode} {merges : List Str} {words : List (List CodePoint)}
    {pieces : List (List Str)}
    (h : List.Forall₂ (fun w ps => Merged port merges (mapped w) ps) words pieces)
    (hwords : ∀ w ∈ words, U.Word w) : units ENDOFTEXT ∉ pieces.flatten := by
  induction h with
  | nil => exact List.not_mem_nil
  | cons hmerged _ ih =>
      rw [List.flatten_cons]
      exact List.not_mem_append (hmerged.ne_endoftext (hwords _ List.mem_cons_self))
        (ih fun w hw => hwords w (List.mem_cons_of_mem _ hw))

/-- The ids of one more word. -/
theorem pushWord_total (t : ClipTokenizer port text) (ids : List ℕ) {U : Unicode}
    {word : List CodePoint} (hword : U.Word word) :
    ∃ t' pieces ids', pushWord (t, ids) word = some (t', ids ++ ids') ∧
      Merged port (port.merges text) (mapped word) pieces ∧
      pieces.map (encoder (port.merges text)) = ids'.map some := by
  have htoken : mapped word ≠ [] := fun h => hword.ne_nil (mapped_eq_nil h)
  obtain ⟨t', pieces, hbpe, hmerged⟩ := t.bpe_total htoken fun x => exists_byte_of_mem
  have hsplit : ([32].intercalate pieces).splitOn 32 = pieces :=
    List.splitOn_intercalate 32 hmerged.spaceless hmerged.toInPieces.ne_nil
  refine ⟨t', pieces, pieces.filterMap (encoder (port.merges text)), ?_, hmerged, ?_⟩
  · unfold pushWord
    dsimp only
    rw [hbpe, Option.map_some, hsplit]
  · -- every piece has an id, so none is dropped
    have hknown := hmerged.known
    clear hsplit hbpe hmerged
    induction pieces with
    | nil => rw [List.filterMap_nil, List.map_nil, List.map_nil]
    | cons p pieces ih =>
        obtain ⟨i, hi⟩ := Option.isSome_iff_exists.mp (hknown p List.mem_cons_self)
        rw [List.filterMap_cons_some hi, List.map_cons, List.map_cons, hi,
          ih fun q hq => hknown q (List.mem_cons_of_mem p hq)]

/-- The ids of some words. -/
theorem pushWords_total (t : ClipTokenizer port text) (ids : List ℕ) {U : Unicode}
    {words : List (List CodePoint)} (hwords : ∀ w ∈ words, U.Word w) :
    ∃ t' pieces ids', words.foldlM pushWord (t, ids) = some (t', ids ++ ids') ∧
      List.Forall₂ (fun w ps => Merged port (port.merges text) (mapped w) ps) words pieces ∧
      pieces.flatten.map (encoder (port.merges text)) = ids'.map some := by
  induction words generalizing t ids with
  | nil =>
      refine ⟨t, [], [], ?_, .nil, ?_⟩
      · rw [List.append_nil]
        rfl
      · rw [List.flatten_nil, List.map_nil, List.map_nil]
  | cons w words ih =>
      obtain ⟨t₁, ps, ids₁, hpush, hmerged, hids₁⟩ :=
        pushWord_total t ids (hwords w List.mem_cons_self)
      obtain ⟨t₂, pieces, ids₂, hfold, hall, hids₂⟩ :=
        ih t₁ (ids ++ ids₁) fun w' hw' => hwords w' (List.mem_cons_of_mem w hw')
      refine ⟨t₂, ps :: pieces, ids₁ ++ ids₂, ?_, .cons hmerged hall, ?_⟩
      · rw [List.foldlM_cons, hpush, ← List.append_assoc]
        exact hfold
      · rw [List.flatten_cons, List.map_append, List.map_append, hids₁, hids₂]

/-- The ids of some pieces in the context: the start mark, the ids as far as they fit, the
end mark, and zeros. -/
structure Framed (merges : List Str) (sot eot : ℕ) (pieces : List Str) (out : List ℕ) : Prop where
  length : out.length = 77
  start : out[0]? = some sot
  ids : ∀ i p, pieces[i]? = some p → i + 1 < min (pieces.length + 1) 76 →
    out[i + 1]? = encoder merges p
  mark : out[min (pieces.length + 1) 76]? = some eot
  first : ∀ i < min (pieces.length + 1) 76, out[i]? ≠ some eot
  zeros : ∀ i, min (pieces.length + 1) 76 < i → i < 77 → out[i]? = some 0

end

section

variable {sot eot : ℕ} {ids : List ℕ}

theorem window_long (h : 76 ≤ ids.length) :
    window sot eot ids = ((sot :: ids ++ [eot]).take 77).set 76 eot := by
  refine if_pos ?_
  simp only [CONTEXT_LENGTH, List.length_append, List.length_cons, List.length_nil]
  omega

theorem window_short (h : ids.length < 76) :
    window sot eot ids = sot :: ids ++ [eot] ++ List.replicate (75 - ids.length) 0 := by
  have hlength : (sot :: ids ++ [eot]).length = ids.length + 2 := by
    simp only [List.length_append, List.length_cons, List.length_nil]
  have hfill : CONTEXT_LENGTH - (sot :: ids ++ [eot]).length = 75 - ids.length := by
    rw [hlength]
    unfold CONTEXT_LENGTH
    omega
  unfold window
  dsimp only
  rw [hfill, if_neg]
  rw [hlength]
  unfold CONTEXT_LENGTH
  omega

theorem length_window (sot eot : ℕ) (ids : List ℕ) : (window sot eot ids).length = 77 := by
  by_cases h : 76 ≤ ids.length
  · rw [window_long h]
    simp only [List.length_set, List.length_take, List.length_append, List.length_cons,
      List.length_nil]
    omega
  · rw [window_short (not_le.mp h)]
    simp only [List.length_append, List.length_cons, List.length_nil, List.length_replicate]
    omega

/-- In front of the end mark, the window holds the start mark and the ids. -/
theorem window_before {i : ℕ} (h : i < min (ids.length + 1) 76) :
    (window sot eot ids)[i]? = (sot :: ids)[i]? := by
  have hfront : (sot :: ids ++ [eot])[i]? = (sot :: ids)[i]? :=
    List.getElem?_append_left (by rw [List.length_cons]; omega)
  by_cases hlong : 76 ≤ ids.length
  · rw [window_long hlong, List.getElem?_set_ne (by omega), List.getElem?_take_of_lt (by omega),
      hfront]
  · rw [window_short (not_le.mp hlong), List.getElem?_append_left, hfront]
    simp only [List.length_append, List.length_cons, List.length_nil]
    omega

theorem window_mark : (window sot eot ids)[min (ids.length + 1) 76]? = some eot := by
  by_cases hlong : 76 ≤ ids.length
  · rw [window_long hlong, Nat.min_eq_right (by omega), List.getElem?_set_self]
    simp only [List.length_take, List.length_append, List.length_cons, List.length_nil]
    omega
  · rw [window_short (not_le.mp hlong), Nat.min_eq_left (by omega), List.getElem?_append_left]
    · exact List.getElem?_concat_length
    · simp only [List.length_append, List.length_cons, List.length_nil]
      omega

theorem window_zeros {i : ℕ} (h : min (ids.length + 1) 76 < i) (hi : i < 77) :
    (window sot eot ids)[i]? = some 0 := by
  have hshort : ids.length < 76 := by omega
  have hlength : (sot :: ids ++ [eot]).length = ids.length + 2 := by
    simp only [List.length_append, List.length_cons, List.length_nil]
  rw [window_short hshort, List.getElem?_append_right (by rw [hlength]; omega), hlength,
    List.getElem?_replicate, if_pos (by omega)]

/-- **The ids in the context**, where the end mark is the id of no piece. -/
theorem framed_window {merges : List Str} {pieces : List Str}
    (hids : pieces.map (encoder merges) = ids.map some)
    (hsot : encoder merges (units STARTOFTEXT) = some sot)
    (heot : encoder merges (units ENDOFTEXT) = some eot) (hpieces : units ENDOFTEXT ∉ pieces) :
    Framed merges sot eot pieces (window sot eot ids) := by
  have hlength : ids.length = pieces.length := by
    have hlengths := congrArg List.length hids
    rw [List.length_map, List.length_map] at hlengths
    exact hlengths.symm
  have hid : ∀ (i : ℕ) p, pieces[i]? = some p → ids[i]? = encoder merges p := by
    intro i p hp
    have hmap : (ids.map some)[i]? = some (encoder merges p) := by
      rw [← hids, List.getElem?_map, hp, Option.map_some]
    rw [List.getElem?_map, Option.map_eq_some_iff] at hmap
    obtain ⟨x, hx, heq⟩ := hmap
    rw [hx, heq]
  refine ⟨length_window sot eot ids, ?_, ?_, ?_, ?_, ?_⟩
  · rw [window_before (by omega)]
    rfl
  · intro i p hp hi
    rw [window_before (by omega), List.getElem?_cons_succ]
    exact hid i p hp
  · rw [← hlength]
    exact window_mark
  · intro i hi heq
    rw [window_before (by omega)] at heq
    cases i with
    | zero =>
        cases heq
        -- the start mark has another id than the end mark, and no piece is the end mark
        exact absurd (eq_of_encoder hsot heot) (by decide)
    | succ i =>
        rw [List.getElem?_cons_succ] at heq
        have hlt : i < pieces.length := by omega
        have hp := List.getElem?_eq_getElem hlt
        have hmark := hid i _ hp
        rw [heq] at hmark
        exact hpieces (eq_of_encoder hmark.symm heot ▸ List.getElem_mem hlt)
  · intro i hi hlt
    exact window_zeros (by omega) hlt

end

/-- **The ids of every text**, for every vocabulary file and in both ports. -/
theorem tokenize_contract (port : Port) (text : Str) (U : Unicode) :
    (buildFromText port text).isSome = true ∧
      ∀ (t : ClipTokenizer port text) (input : List CodePoint), ∃ t' out pieces,
        t.tokenize U input = some (t', out) ∧
        List.Forall₂ (fun w ps => Merged port (port.merges text) (mapped w) ps) (U.words input)
          pieces ∧
        Framed (port.merges text) t.sot t.eot pieces.flatten out := by
  refine ⟨isSome_buildFromText port text, fun t input => ?_⟩
  have hwords : ∀ w ∈ U.words input, U.Word w := fun _ => Unicode.word_of_mem
  obtain ⟨t', pieces, ids, hfold, hmerged, hids⟩ := t.pushWords_total [] hwords
  have hsot : t'.sot = t.sot := Option.some.inj (t'.sot_eq.symm.trans t.sot_eq)
  have heot : t'.eot = t.eot := Option.some.inj (t'.eot_eq.symm.trans t.eot_eq)
  refine ⟨t', window t.sot t.eot ids, pieces, ?_, hmerged, ?_⟩
  · unfold tokenize
    rw [hfold, Option.map_some, hsot, heot]
    rfl
  · refine framed_window hids t.sot_eq t.eot_eq ?_
    exact not_mem_flatten hmerged hwords

end ClipTokenizer
