/-
# Whether the two readings of a NaVIDA response agree

The backend reads the first action of a response with the anchored grammar of
`action_to_embedding`; the executor takes the following ones from the unanchored
scan of `chunk_actions`, whose first match it drops.  `spoken` is what the
grammar alone makes of the whole answer, part by part and up to a `stop` or an
invalid part.  `executed` is what the executor carries out.  Both keep with each
action the place of the response that it was read from.

A part that the grammar accepts holds at most one match of the scan, and then the
same action (`findall_of_readPart`), so the matches in the spoken parts are a
sublist of what is spoken; `executed_eq_spoken_iff` counts the others.
-/
import Mathlib.Analysis.Real.Pi.Bounds
import Mathlib.Tactic.Positivity
import Rvln.NavidaResponse

namespace NavidaText

/-! ## Dropping one element -/

/-- The first element of a list is dropped, and what is left is a list `S`: the
elements that are not of `S` were exactly the first one. -/
theorem drop_one_eq_iff {α : Type*} {X C S Y : List α} (hC : C.Sublist S)
    (hX : ∀ x ∈ X, x ∉ S) (hY : ∀ y ∈ Y, y ∉ S) :
    (X ++ C ++ Y).drop 1 = S ↔
      C = S ∧ if S = [] then X.length + Y.length ≤ 1 else X.length = 1 ∧ Y = [] := by
  rcases eq_or_ne S [] with rfl | hS
  · obtain rfl := List.sublist_nil.mp hC
    rw [if_pos rfl, List.append_nil, List.drop_eq_nil_iff, List.length_append]
    exact ⟨fun h => ⟨rfl, h⟩, fun h => h.2⟩
  · rw [if_neg hS]
    constructor
    · intro h
      rcases X with _ | ⟨x, X⟩
      · rcases C with _ | ⟨c, C⟩
        · -- what is left of `Y` would be in `S`
          obtain ⟨s, hs⟩ := List.exists_mem_of_ne_nil S hS
          have hmem : s ∈ Y := by
            rw [← h] at hs
            exact List.mem_of_mem_drop hs
          exact absurd hs (hY s hmem)
        · have h : C ++ Y = S := h
          have hnil : Y = [] := by
            refine List.eq_nil_iff_forall_not_mem.mpr fun y hy => hY y hy ?_
            rw [← h]
            exact List.mem_append_right C hy
          have hlen := hC.length_le
          rw [← h, hnil, List.append_nil, List.length_cons] at hlen
          omega
      · have h : X ++ C ++ Y = S := h
        have hnil : X = [] := by
          refine List.eq_nil_iff_forall_not_mem.mpr fun z hz => hX z (List.mem_cons_of_mem x hz) ?_
          rw [← h]
          exact List.mem_append_left Y (List.mem_append_left C hz)
        have hnil' : Y = [] := by
          refine List.eq_nil_iff_forall_not_mem.mpr fun y hy => hY y hy ?_
          rw [← h]
          exact List.mem_append_right (X ++ C) hy
        rw [hnil, hnil', List.nil_append, List.append_nil] at h
        exact ⟨h, by rw [hnil]; rfl, hnil'⟩
    · rintro ⟨rfl, hone, rfl⟩
      obtain ⟨x, rfl⟩ := List.length_eq_one_iff.mp hone
      rw [List.append_nil]
      rfl

/-! ## Where an action is read -/

/-- The place of a response that an action is read from. -/
inductive Origin
  | before
  | part (index : ℕ)
  | after
  deriving DecidableEq

/-- The parts of the answer, between its commas. -/
def parts (response : Text) : List Text :=
  let answer := splitCommas (answer response).2.1
  answer.1 :: answer.2

/-- The spoken parts with their actions: up to and including the first `stop`, or
up to the first part that is not a valid action. -/
def spokenParts : List Text → List (Text × Instr)
  | [] => []
  | part :: others =>
      match readPart part with
      | .error _ => []
      | .ok .stop => [(part, .stop)]
      | .ok i => (part, i) :: spokenParts others

section

variable {K : Type} [Field K] [LinearOrder K] [Trig K]

/-- The actions of spoken parts, counted from `k` on. -/
def spokenAt (k : ℕ) (said : List (Text × Instr)) : List (Origin × NavidaAction K) :=
  (said.zipIdx k).map fun m => (.part m.2, m.1.2.action)

/-- The primitive of a match in its place, when its number can be read. -/
def carried (m : Origin × Verb × Text) : Origin × NavidaAction K := (m.1, matchAction m.2)

/-- What `chunk_actions` makes of a match, in its place. -/
def queueAt (m : Origin × Verb × Text) : Except Raised (Origin × NavidaAction K) :=
  (chunkAction m.2).map fun action => (m.1, action)

/-- The actions of a response by the grammar alone. -/
def spoken (response : Text) : List (Origin × NavidaAction K) :=
  spokenAt 0 (spokenParts (parts response))

/-- What the scan finds in one place. -/
def scannedIn (origin : Origin) (text : Text) : List (Origin × Verb × Text) :=
  (findall text).map fun found => (origin, found)

/-- What the scan finds in parts, counted from `k` on. -/
def scannedAt (k : ℕ) (parts : List Text) : List (Origin × Verb × Text) :=
  (parts.zipIdx k).flatMap fun m => scannedIn (.part m.2) m.1

/-- What the scan finds in a response. -/
def scanned (response : Text) : List (Origin × Verb × Text) :=
  scannedIn .before (answer response).1 ++ scannedAt 0 (parts response) ++
    scannedIn .after (answer response).2.2

/-- The actions that the executor carries out for a response: the decoded one,
which is that of the first part, and what `chunk_actions` returns, if it does. -/
def executed (response : Text) (decoded : NavidaAction K) :
    Except Raised (List (Origin × NavidaAction K)) :=
  (((scanned response).drop 1).mapM queueAt).map fun queue => (.part 0, decoded) :: queue

end

/-- The scan matches in every spoken part after the first, which says that its
verb is written in lower case with single spaces, its number is written out, and
it is not a `stop`; of the rest of the response it matches exactly once before
the second part and not at all behind the spoken ones.  If nothing is spoken
after the first part, at most one match anywhere is enough. -/
def Aligned (response : Text) : Prop :=
  let said := spokenParts (parts response)
  let earlier := (findall (answer response).1).length +
    (findall (splitCommas (answer response).2.1).1).length
  let later := (((parts response).drop said.length).flatMap findall).length +
    (findall (answer response).2.2).length
  (∀ m ∈ said.tail, findall m.1 ≠ []) ∧
    if said.tail = [] then earlier + later ≤ 1 else earlier = 1 ∧ later = 0

instance (response : Text) : Decidable (Aligned response) := by
  unfold Aligned
  infer_instance

/-! ## The scan place by place -/

theorem spokenParts_read (ps : List Text) :
    ∀ m ∈ spokenParts ps, readPart m.1 = .ok m.2 := by
  induction ps with
  | nil => exact nofun
  | cons part others ih =>
      intro m hm
      rw [spokenParts] at hm
      split at hm
      · cases hm
      · rename_i hread
        obtain rfl := List.mem_singleton.mp hm
        exact hread
      · rename_i i _ hread
        rcases List.mem_cons.mp hm with rfl | hm
        · exact hread
        · exact ih m hm

/-- The spoken parts are the first parts. -/
theorem spokenParts_append (ps : List Text) :
    ps = (spokenParts ps).map Prod.fst ++ ps.drop (spokenParts ps).length := by
  induction ps with
  | nil => rfl
  | cons part others ih =>
      rw [spokenParts]
      split
      · rfl
      · rfl
      · exact congrArg (part :: ·) ih

/-- The first part is spoken if it is valid. -/
theorem spokenParts_cons {part : Text} {others : List Text} {i : Instr}
    (h : readPart part = .ok i) :
    ∃ said, spokenParts (part :: others) = (part, i) :: said := by
  rw [spokenParts, h]
  cases i with
  | stop => exact ⟨[], rfl⟩
  | forward distance => exact ⟨_, rfl⟩
  | turn left degrees => exact ⟨_, rfl⟩

section

variable {K : Type} [Field K] [LinearOrder K] [Trig K]

omit [LinearOrder K] in
theorem spokenAt_cons (k : ℕ) (m : Text × Instr) (said : List (Text × Instr)) :
    (spokenAt k (m :: said) : List (Origin × NavidaAction K)) =
      (.part k, m.2.action) :: spokenAt (k + 1) said :=
  rfl

omit [LinearOrder K] in
theorem spokenAt_actions (k : ℕ) (said : List (Text × Instr)) :
    (spokenAt k said : List (Origin × NavidaAction K)).map Prod.snd =
      (said.map Prod.snd).map Instr.action := by
  induction said generalizing k with
  | nil => rfl
  | cons m said ih =>
      rw [spokenAt_cons, List.map_cons, ih, List.map_cons, List.map_cons]

theorem scannedAt_cons (k : ℕ) (part : Text) (others : List Text) :
    scannedAt k (part :: others) = scannedIn (.part k) part ++ scannedAt (k + 1) others :=
  rfl

theorem scannedAt_append (k : ℕ) (ps qs : List Text) :
    scannedAt k (ps ++ qs) = scannedAt k ps ++ scannedAt (k + ps.length) qs := by
  unfold scannedAt
  rw [List.zipIdx_append, List.flatMap_append]

omit [LinearOrder K] in
/-- An action that is spoken is from one of the spoken parts. -/
theorem origin_of_mem_spokenAt {k : ℕ} {said : List (Text × Instr)} {x : Origin × NavidaAction K}
    (h : x ∈ spokenAt k said) : ∃ j, x.1 = .part j ∧ k ≤ j ∧ j < k + said.length := by
  obtain ⟨m, hm, rfl⟩ := List.mem_map.mp h
  exact ⟨m.2, rfl, List.le_snd_of_mem_zipIdx hm, List.snd_lt_add_of_mem_zipIdx hm⟩

theorem origin_of_mem_scannedIn {origin : Origin} {text : Text} {m : Origin × Verb × Text}
    (h : m ∈ scannedIn origin text) : m.1 = origin := by
  obtain ⟨found, -, rfl⟩ := List.mem_map.mp h
  rfl

theorem origin_of_mem_scannedAt {k : ℕ} {ps : List Text} {m : Origin × Verb × Text}
    (h : m ∈ scannedAt k ps) : ∃ j, m.1 = .part j ∧ k ≤ j := by
  obtain ⟨part, hpart, hm⟩ := List.mem_flatMap.mp h
  exact ⟨part.2, origin_of_mem_scannedIn hm, List.le_snd_of_mem_zipIdx hpart⟩

/-- What is found in the parts is found in one of them. -/
theorem exists_of_mem_scannedAt {k : ℕ} {ps : List Text} {m : Origin × Verb × Text}
    (h : m ∈ scannedAt k ps) : ∃ part ∈ ps, m.2 ∈ findall part := by
  obtain ⟨part, hpart, hm⟩ := List.mem_flatMap.mp h
  obtain ⟨found, hfound, rfl⟩ := List.mem_map.mp hm
  exact ⟨part.1, List.fst_mem_of_mem_zipIdx hpart, hfound⟩

theorem length_scannedIn (origin : Origin) (text : Text) :
    (scannedIn origin text).length = (findall text).length :=
  List.length_map _

theorem length_scannedAt (k : ℕ) (ps : List Text) :
    (scannedAt k ps).length = (ps.flatMap findall).length := by
  induction ps generalizing k with
  | nil => rfl
  | cons part others ih =>
      rw [scannedAt_cons, List.flatMap_cons, List.length_append, List.length_append, ih,
        length_scannedIn]

theorem scannedAt_matches (k : ℕ) (ps : List Text) :
    (scannedAt k ps).map Prod.snd = ps.flatMap findall := by
  induction ps generalizing k with
  | nil => rfl
  | cons part others ih =>
      rw [scannedAt_cons, List.flatMap_cons, List.map_append, ih, scannedIn, List.map_map]
      congr 1
      exact List.map_id _

/-- The places of a response together are the scan of `chunk_actions`. -/
theorem scanned_matches (response : Text) :
    (scanned response).map Prod.snd = findall response := by
  have hparts : (parts response).flatMap findall = findall (answer response).2.1 :=
    (findall_splitCommas _).symm
  have hin : ∀ origin text, (scannedIn origin text).map Prod.snd = findall text := by
    intro origin text
    rw [scannedIn, List.map_map]
    exact List.map_id _
  unfold scanned
  rw [findall_answer, List.map_append, List.map_append, scannedAt_matches, hparts, hin, hin]

/-- The queue with its places is the queue. -/
theorem mapM_queueAt (ms : List (Origin × Verb × Text)) :
    (ms.mapM queueAt : Except Raised (List (Origin × NavidaAction K))).map (List.map Prod.snd) =
      (ms.map Prod.snd).mapM chunkAction := by
  induction ms with
  | nil => rfl
  | cons m ms ih =>
      rw [List.map_cons, List.mapM_cons, List.mapM_cons, ← ih, queueAt]
      cases (chunkAction m.2 : Except Raised (NavidaAction K)) with
      | error e => rfl
      | ok action =>
          cases (ms.mapM queueAt : Except Raised (List (Origin × NavidaAction K))) with
          | error e => rfl
          | ok queue => rfl

/-- The executor's list is the decoded action and the queue. -/
theorem executed_actions (response : Text) (decoded : NavidaAction K) :
    (executed response decoded).map (List.map Prod.snd) =
      (chunkActions response).map (decoded :: ·) := by
  unfold executed chunkActions
  rw [← scanned_matches, ← List.map_drop, ← mapM_queueAt]
  cases (((scanned response).drop 1).mapM queueAt :
      Except Raised (List (Origin × NavidaAction K))) with
  | error e => rfl
  | ok queue => rfl

/-- **A queue is built** when all numbers behind the first match can be read. -/
theorem mapM_queueAt_eq_ok {ms : List (Origin × Verb × Text)}
    {queue : List (Origin × NavidaAction K)} :
    ms.mapM queueAt = .ok queue ↔ (∀ m ∈ ms, ¬ Unreadable m.2) ∧ ms.map carried = queue := by
  have hqueueAt : ∀ m (x : Origin × NavidaAction K),
      queueAt m = .ok x ↔ ¬ Unreadable m.2 ∧ carried m = x := by
    intro m x
    unfold queueAt
    cases hm : (chunkAction m.2 : Except Raised (NavidaAction K)) with
    | error e =>
        refine iff_of_false (fun h => by cases h) fun h => ?_
        rw [chunkAction_eq_ok.mpr ⟨h.1, rfl⟩] at hm
        cases hm
    | ok action =>
        obtain ⟨hread, rfl⟩ := chunkAction_eq_ok.mp hm
        exact (Except.ok.injEq _ _).to_iff.trans (and_iff_right hread).symm
  constructor
  · intro h
    refine ⟨fun m hm => ?_, ?_⟩
    · obtain ⟨x, -, hx⟩ := Except.exists_of_mapM_ok h hm
      exact ((hqueueAt m x).mp hx).1
    · have hmap := Except.map_eq_of_mapM_ok (g := carried) (k := id)
        (fun m x hx => ((hqueueAt m x).mp hx).2.symm) h
      rw [← hmap, List.map_id]
  · rintro ⟨hread, rfl⟩
    exact Except.mapM_eq_ok fun m hm => (hqueueAt m _).mpr ⟨hread m hm, rfl⟩

end

/-! ## The spoken parts under the scan -/

section

variable {K : Type} [Field K] [LinearOrder K] [IsStrictOrderedRing K] [Trig K]

omit [Field K] [LinearOrder K] [IsStrictOrderedRing K] [Trig K] in
/-- Numbers up to one are floats. -/
theorem not_tooLarge {x : ℚ} (h : |x| ≤ 1) : ¬ Json.TooLarge x := by
  have hle := BinaryFloat.encode_le ⟨52, 1023⟩ (e := 0) (by decide) (abs_nonneg x)
    (by norm_num; linarith)
  exact not_le.mpr (lt_of_le_of_lt hle (by decide))

/-- A written action is carried out as it is: the limits of `chunk_actions` are
those of the grammar. -/
theorem chunkAction_of_written {i : Instr} {found : Verb × Text} (hvalid : i.Valid)
    (h : i.Written found) : chunkAction found = .ok (i.action : NavidaAction K) := by
  obtain ⟨verb, digits⟩ := found
  rw [chunkAction_eq_ok]
  cases i with
  | stop => exact h.elim
  | forward distance =>
      obtain ⟨rfl, hdigits⟩ : verb = .forward ∧ intOf digits = .ok distance := h
      obtain ⟨hshort, rfl⟩ := intOf_eq_ok.mp hdigits
      refine ⟨?_, ?_⟩
      · rintro (hlong | ⟨-, hlarge⟩)
        · exact absurd hlong (Nat.not_lt.mpr hshort)
        · refine not_tooLarge ?_ hlarge
          have hcast : (number digits : ℚ) ≤ 75 := by exact_mod_cast hvalid.2
          rw [abs_of_nonneg (by positivity)]
          linarith
      -- the clip at 75 cm does nothing
      · have hle : ((number digits : K) / 100) ≤ 75 / 100 := by
          have hcast : (number digits : K) ≤ 75 := by exact_mod_cast hvalid.2
          exact div_le_div_of_nonneg_right hcast (by norm_num)
        show (⟨min (75 / 100) ((number digits : K) / 100), 0⟩ : NavidaAction K) =
          ⟨(number digits : K) / 100, 0⟩
        rw [min_eq_right hle]
  | turn left degrees =>
      obtain ⟨rfl, hdigits⟩ : verb = .side left ∧ intOf digits = .ok degrees := h
      obtain ⟨hshort, rfl⟩ := intOf_eq_ok.mp hdigits
      refine ⟨?_, ?_⟩
      · rintro (hlong | ⟨hverb, -⟩)
        · exact absurd hlong (Nat.not_lt.mpr hshort)
        · cases left <;> cases hverb
      -- nor the one at 45 degrees
      · have hle : (number digits : K) ≤ 45 := by exact_mod_cast hvalid.2
        cases left with
        | true =>
            show (⟨0, Trig.radians (min 45 (number digits : K))⟩ : NavidaAction K) =
              ⟨0, Trig.radians (number digits : K)⟩
            rw [min_eq_right hle]
        | false =>
            show (⟨0, -Trig.radians (min 45 (number digits : K))⟩ : NavidaAction K) =
              ⟨0, -Trig.radians (number digits : K)⟩
            rw [min_eq_right hle]

/-- What the scan finds in a valid part can be read. -/
theorem readable_of_readPart {part : Text} {i : Instr} (h : readPart part = .ok i)
    {found : Verb × Text} (hfound : found ∈ findall part) : ¬ Unreadable found := by
  rcases findall_of_readPart h with hnil | ⟨found', hwritten, hone⟩
  · rw [hnil] at hfound
    cases hfound
  · rw [hone, List.mem_singleton] at hfound
    subst hfound
    exact (chunkAction_eq_ok.mp
      (chunkAction_of_written (K := ℝ) (readPart_valid h) hwritten)).1

/-- In a valid part the scan finds nothing, or the action of the part. -/
theorem scannedIn_of_readPart {part : Text} {i : Instr} (h : readPart part = .ok i)
    (origin : Origin) :
    (findall part = [] ∧ scannedIn origin part = []) ∨
      (findall part ≠ [] ∧ (scannedIn origin part).map carried =
        [((origin, i.action) : Origin × NavidaAction K)]) := by
  unfold scannedIn
  rcases findall_of_readPart h with hnil | ⟨found, hfound, hone⟩
  · rw [hnil]
    exact .inl ⟨rfl, rfl⟩
  · have haction : matchAction found = (i.action : NavidaAction K) :=
      (chunkAction_eq_ok.mp (chunkAction_of_written (readPart_valid h) hfound)).2
    rw [hone, List.map_singleton, List.map_singleton, carried, haction]
    exact .inr ⟨List.cons_ne_nil _ _, rfl⟩

/-- **The scan never misreads a spoken part**: what it finds in them is some of
what is spoken, in order. -/
theorem scannedAt_sublist {said : List (Text × Instr)}
    (hread : ∀ m ∈ said, readPart m.1 = .ok m.2) (k : ℕ) :
    ((scannedAt k (said.map Prod.fst)).map carried : List (Origin × NavidaAction K)).Sublist
      (spokenAt k said) := by
  induction said generalizing k with
  | nil => exact List.Sublist.slnil
  | cons m said ih =>
      obtain ⟨hm, hsaid⟩ := List.forall_mem_cons.mp hread
      rw [List.map_cons, scannedAt_cons, spokenAt_cons, List.map_append]
      rcases scannedIn_of_readPart (K := K) hm (.part k) with ⟨-, hnil⟩ | ⟨-, hone⟩
      · rw [hnil]
        exact (ih hsaid (k + 1)).cons _
      · rw [hone]
        exact (ih hsaid (k + 1)).cons_cons _

/-- It finds all that is spoken if it finds something in each part. -/
theorem scannedAt_eq_iff {said : List (Text × Instr)}
    (hread : ∀ m ∈ said, readPart m.1 = .ok m.2) (k : ℕ) :
    ((scannedAt k (said.map Prod.fst)).map carried : List (Origin × NavidaAction K)) =
        spokenAt k said ↔
      ∀ m ∈ said, findall m.1 ≠ [] := by
  induction said generalizing k with
  | nil => exact ⟨fun _ _ hm => absurd hm List.not_mem_nil, fun _ => rfl⟩
  | cons m said ih =>
      obtain ⟨hm, hsaid⟩ := List.forall_mem_cons.mp hread
      rw [List.map_cons, scannedAt_cons, spokenAt_cons, List.forall_mem_cons, List.map_append]
      rcases scannedIn_of_readPart (K := K) hm (.part k) with ⟨hfind, hnil⟩ | ⟨hfind, hone⟩
      · rw [hnil]
        constructor
        · intro h
          have hlen := (scannedAt_sublist (K := K) hsaid (k + 1)).length_le
          rw [show (scannedAt (k + 1) (said.map Prod.fst)).map carried = _ from h,
            List.length_cons] at hlen
          omega
        · exact fun h => absurd hfind h.1
      · rw [hone, List.singleton_append, List.cons_inj_right, ih hsaid (k + 1)]
        exact ⟨fun h => ⟨hfind, h⟩, fun h => h.2⟩

omit [IsStrictOrderedRing K] in
/-- What is found before the second part is no action of the later parts. -/
theorem earlier_not_mem_spokenAt {said : List (Text × Instr)} {m : Origin × Verb × Text}
    (h : m.1 = .before ∨ m.1 = .part 0) :
    (carried m : Origin × NavidaAction K) ∉ spokenAt 1 said := by
  intro hmem
  obtain ⟨j, hj, hle, -⟩ := origin_of_mem_spokenAt hmem
  replace hj : m.1 = .part j := hj
  rcases h with h | h
  · rw [h] at hj
    cases hj
  · rw [h] at hj
    cases hj
    omega

omit [IsStrictOrderedRing K] in
/-- Nor is what is found behind the spoken parts. -/
theorem later_not_mem_spokenAt {said : List (Text × Instr)} {m : Origin × Verb × Text}
    (h : (∃ j, m.1 = .part j ∧ 1 + said.length ≤ j) ∨ m.1 = .after) :
    (carried m : Origin × NavidaAction K) ∉ spokenAt 1 said := by
  intro hmem
  obtain ⟨j, hj, -, hlt⟩ := origin_of_mem_spokenAt hmem
  replace hj : m.1 = .part j := hj
  rcases h with ⟨k, h, hle⟩ | h
  · rw [h] at hj
    cases hj
    omega
  · rw [h] at hj
    cases hj

/-- What is found in the spoken parts can be read. -/
theorem readable_of_mem_scannedAt {said : List (Text × Instr)}
    (hread : ∀ m ∈ said, readPart m.1 = .ok m.2) {k : ℕ} {m : Origin × Verb × Text}
    (h : m ∈ scannedAt k (said.map Prod.fst)) : ¬ Unreadable m.2 := by
  obtain ⟨_, hpart, hfound⟩ := exists_of_mem_scannedAt h
  obtain ⟨part, hsaid, rfl⟩ := List.mem_map.mp hpart
  exact readable_of_readPart (hread part hsaid) hfound

omit [IsStrictOrderedRing K] in
/-- The decoded action is carried out, and behind it the queue. -/
theorem executed_eq_ok {response : Text} {decoded : NavidaAction K}
    {queue : List (Origin × NavidaAction K)} :
    executed response decoded = .ok ((.part 0, decoded) :: queue) ↔
      ((scanned response).drop 1).mapM queueAt = .ok queue := by
  unfold executed
  cases (((scanned response).drop 1).mapM queueAt :
      Except Raised (List (Origin × NavidaAction K))) with
  | error e => exact iff_of_false (fun h => by cases h) fun h => by cases h
  | ok queue' => simp [Except.map]

/-- **Exactly the aligned responses are carried out as spoken.** -/
theorem executed_eq_spoken_iff_aligned {response : Text} {i : Instr}
    (h : readPart (splitCommas (answer response).2.1).1 = .ok i) :
    executed response (i.action : NavidaAction K) = .ok (spoken response) ↔ Aligned response := by
  set first := (splitCommas (answer response).2.1).1 with hfirst
  obtain ⟨said, hsaid⟩ : ∃ said, spokenParts (parts response) = (first, i) :: said :=
    spokenParts_cons h
  have hread : ∀ m ∈ said, readPart m.1 = .ok m.2 := by
    intro m hm
    have hmem : m ∈ spokenParts (parts response) := by
      rw [hsaid]
      exact List.mem_cons_of_mem _ hm
    exact spokenParts_read _ m hmem
  set unsaid := (parts response).drop (said.length + 1) with hunsaid
  have hparts : parts response = [first] ++ (said.map Prod.fst ++ unsaid) := by
    have hsplit := spokenParts_append (parts response)
    rw [hsaid] at hsplit
    exact hsplit
  let S : List (Origin × NavidaAction K) := spokenAt 1 said
  -- before the second part, in the spoken parts from there on, and behind them
  let X := scannedIn .before (answer response).1 ++ scannedIn (.part 0) first
  let C := scannedAt 1 (said.map Prod.fst)
  let Y := scannedAt (1 + said.length) unsaid ++ scannedIn .after (answer response).2.2
  have hscanned : scanned response = X ++ C ++ Y := by
    unfold scanned
    rw [hparts, List.singleton_append, scannedAt_cons, scannedAt_append, List.length_map]
    simp only [X, C, Y, List.append_assoc, Nat.zero_add]
  have hearlier : ∀ m ∈ X, carried m ∉ S := fun m hm =>
    earlier_not_mem_spokenAt
      ((List.mem_append.mp hm).imp origin_of_mem_scannedIn origin_of_mem_scannedIn)
  have hlater : ∀ m ∈ Y, carried m ∉ S := fun m hm =>
    later_not_mem_spokenAt
      ((List.mem_append.mp hm).imp origin_of_mem_scannedAt origin_of_mem_scannedIn)
  have hreadable : ((scanned response).drop 1).map carried = S →
      ∀ m ∈ (scanned response).drop 1, ¬ Unreadable m.2 := by
    intro hS m hm
    have hmem : carried m ∈ S := hS ▸ List.mem_map_of_mem hm
    have hall := List.mem_of_mem_drop hm
    rw [hscanned] at hall
    rcases List.mem_append.mp hall with hXC | hY
    · exact readable_of_mem_scannedAt hread
        ((List.mem_append.mp hXC).resolve_left fun hX => hearlier m hX hmem)
    · exact absurd hmem (hlater m hY)
  have hspoken : (spoken response : List (Origin × NavidaAction K)) = (.part 0, i.action) :: S := by
    unfold spoken
    rw [hsaid, spokenAt_cons]
  rw [hspoken, executed_eq_ok, mapM_queueAt_eq_ok, and_iff_right_of_imp hreadable, List.map_drop,
    hscanned, List.map_append, List.map_append, drop_one_eq_iff (scannedAt_sublist hread 1)
      (List.forall_mem_map.mpr hearlier) (List.forall_mem_map.mpr hlater), scannedAt_eq_iff hread]
  unfold Aligned
  have hnil : (spokenAt 1 said : List (Origin × NavidaAction K)) = [] ↔ said = [] := by
    unfold spokenAt
    rw [List.map_eq_nil_iff, List.zipIdx_eq_nil_iff]
  simp only [hsaid, hnil, X, Y, List.length_map, List.map_eq_nil_iff, List.tail_cons,
    List.length_cons, List.length_append, length_scannedIn, length_scannedAt,
    ← List.length_eq_zero_iff (l := _ ++ _), ← hunsaid, ← hfirst]

end

/-! ## The first action, decoded -/

/-- What `decode_action` accepts, in terms of the direction. -/
theorem decodeAction_accepts {x cosine sine : ℝ} (hx : 0 ≤ x ∧ x ≤ 75 / 100)
    (hlow : x = 0 ∨ 1 / 100 - 1 / 10 ^ 6 ≤ x)
    (hunit : |cosine * cosine + sine * sine - 1| ≤ 1 / 1000)
    (hangle : (Trig.atan2 sine cosine : ℝ) = 0 ∨
      Trig.radians 1 - 1 / 10 ^ 6 ≤ |(Trig.atan2 sine cosine : ℝ)|)
    (hmax : |(Trig.atan2 sine cosine : ℝ)| ≤ Trig.radians 45 + 1 / 10 ^ 6)
    (hone : x = 0 ∨ |(Trig.atan2 sine cosine : ℝ)| ≤ 1 / 10 ^ 6) :
    StepCycle.decodeAction [.fin x, .fin 0, .fin cosine, .fin sine] =
      .ok ⟨x, Trig.atan2 sine cosine⟩ := by
  unfold StepCycle.decodeAction
  dsimp only
  refine if_neg ?_
  rintro (h | h | h | ⟨hpos, h⟩ | ⟨hpos, h⟩ | h | ⟨hpos, h⟩)
  · exact h rfl
  · exact h hx
  · exact absurd hunit (not_le.mpr h)
  · rcases hlow with hzero | hlow
    · exact hpos.ne' hzero
    · exact absurd hlow (not_le.mpr h)
  · rcases hangle with hzero | hangle
    · exact hpos.ne' (by rw [hzero, abs_zero])
    · exact absurd hangle (not_le.mpr h)
  · exact absurd hmax (not_le.mpr h)
  · rcases hone with hzero | hsmall
    · exact hpos.ne' hzero
    · exact absurd hsmall (not_le.mpr h)

/-- What `decode_action` makes of a primitive. -/
theorem decodeAction_primitive {x angle : ℝ} (hx : x = 0 ∨ 1 / 100 ≤ x) (hmax : x ≤ 75 / 100)
    (hangle : angle = 0 ∨ Trig.radians 1 ≤ |angle|) (hturn : |angle| ≤ Trig.radians 45)
    (hone : x = 0 ∨ angle = 0) :
    StepCycle.decodeAction [.fin x, .fin 0, .fin (Trig.cos angle), .fin (Trig.sin angle)] =
      .ok ⟨x, angle⟩ := by
  have hpi : 3 < Real.pi := Real.pi_gt_three
  have hquarter : |angle| ≤ 45 * Real.pi / 180 := hturn
  have hrange := abs_le.mp hquarter
  have hatan : (Trig.atan2 (Trig.sin angle) (Trig.cos angle) : ℝ) = angle := by
    show Complex.arg ⟨Real.cos angle, Real.sin angle⟩ = angle
    have hmk : (⟨Real.cos angle, Real.sin angle⟩ : ℂ) =
        Complex.cos angle + Complex.sin angle * Complex.I := by
      rw [← Complex.ofReal_cos, ← Complex.ofReal_sin]
      exact Complex.mk_eq_add_mul_I _ _
    rw [hmk]
    exact Complex.arg_cos_add_sin_mul_I ⟨by linarith, by linarith⟩
  have hunit : (Trig.cos angle * Trig.cos angle + Trig.sin angle * Trig.sin angle - 1 : ℝ) = 0 := by
    show Real.cos angle * Real.cos angle + Real.sin angle * Real.sin angle - 1 = 0
    have h := Real.sin_sq_add_cos_sq angle
    linarith [h, sq (Real.sin angle), sq (Real.cos angle)]
  have hnonneg : 0 ≤ x := by
    rcases hx with rfl | hx
    · exact le_rfl
    · linarith
  have haccept := decodeAction_accepts ⟨hnonneg, hmax⟩ (hx.imp_right fun h => by linarith)
    (by rw [hunit, abs_zero]; positivity)
    (by rw [hatan]; exact hangle.imp_right fun h => by linarith) (by rw [hatan]; linarith)
    (hone.imp_right fun h => by rw [hatan, h, abs_zero]; positivity)
  rwa [hatan] at haccept

/-- The row of an action has the shape of a primitive. -/
theorem embedding_eq (i : Instr) :
    (i.embedding : List (PyFloat ℝ)) =
      [.fin (i.action : NavidaAction ℝ).distance, .fin 0,
        .fin (Trig.cos (i.action : NavidaAction ℝ).angle),
        .fin (Trig.sin (i.action : NavidaAction ℝ).angle)] := by
  have hcos : (Trig.cos 0 : ℝ) = 1 := Real.cos_zero
  have hsin : (Trig.sin 0 : ℝ) = 0 := Real.sin_zero
  cases i with
  | stop =>
      show _ = [PyFloat.fin 0, .fin 0, .fin (Trig.cos 0), .fin (Trig.sin 0)]
      rw [hcos, hsin]
      rfl
  | forward distance =>
      show _ = [PyFloat.fin ((distance : ℝ) / 100), .fin 0, .fin (Trig.cos 0), .fin (Trig.sin 0)]
      rw [hcos, hsin]
      rfl
  | turn left degrees =>
      have hyaw : Trig.radians (degrees : ℝ) * (if left then 1 else -1) =
          if left then Trig.radians (degrees : ℝ) else -Trig.radians (degrees : ℝ) := by
        cases left <;> simp
      unfold Instr.embedding Instr.action
      dsimp only
      rw [hyaw]

/-- The angle of a turn in range. -/
theorem turn_angle_range (left : Bool) {degrees : ℕ} (h : 0 < degrees ∧ degrees ≤ 45) :
    Trig.radians 1 ≤ |((Instr.turn left degrees).action : NavidaAction ℝ).angle| ∧
      |((Instr.turn left degrees).action : NavidaAction ℝ).angle| ≤ Trig.radians 45 := by
  have hlow : (1 : ℝ) ≤ degrees := by exact_mod_cast h.1
  have hhigh : (degrees : ℝ) ≤ 45 := by exact_mod_cast h.2
  have habs : |((Instr.turn left degrees).action : NavidaAction ℝ).angle| =
      (degrees : ℝ) * Real.pi / 180 := by
    have hpos : 0 ≤ (degrees : ℝ) * Real.pi / 180 := by positivity
    cases left with
    | true => exact abs_of_nonneg hpos
    | false => exact (abs_neg _).trans (abs_of_nonneg hpos)
  rw [habs]
  constructor
  · show 1 * Real.pi / 180 ≤ (degrees : ℝ) * Real.pi / 180
    gcongr
  · show (degrees : ℝ) * Real.pi / 180 ≤ 45 * Real.pi / 180
    gcongr

/-- Decoding the row of a valid action gives the action back. -/
theorem decodeAction_embedding {i : Instr} (h : i.Valid) :
    StepCycle.decodeAction (i.embedding : List (PyFloat ℝ)) = .ok i.action := by
  have hpi : 3 < Real.pi := Real.pi_gt_three
  rw [embedding_eq]
  cases i with
  | stop =>
      refine decodeAction_primitive (.inl rfl) (by norm_num [Instr.action]) (.inl rfl) ?_ (.inl rfl)
      show |(0 : ℝ)| ≤ 45 * Real.pi / 180
      rw [abs_zero]
      linarith
  | forward distance =>
      have hlow : (1 : ℝ) ≤ distance := by exact_mod_cast h.1
      have hhigh : (distance : ℝ) ≤ 75 := by exact_mod_cast h.2
      refine decodeAction_primitive (.inr ?_) ?_ (.inl rfl) ?_ (.inr rfl)
      · show (1 : ℝ) / 100 ≤ (distance : ℝ) / 100
        linarith
      · show (distance : ℝ) / 100 ≤ 75 / 100
        linarith
      · show |(0 : ℝ)| ≤ 45 * Real.pi / 180
        rw [abs_zero]
        linarith
  | turn left degrees =>
      obtain ⟨hleast, hmost⟩ := turn_angle_range left h
      exact decodeAction_primitive (.inl rfl) (by norm_num [Instr.action]) (.inr hleast) hmost
        (.inl rfl)

/-! ## The agreement -/

/-- **The two readings agree on exactly the aligned responses.**  For a response
that the backend accepts, the executor decodes the row to the first action and
queues the others; the queue is built and its actions are the spoken ones, each
from its own place, if and only if the response is aligned. -/
theorem executed_eq_spoken_iff {response : Text} {row : List (PyFloat ℝ)}
    (h : actionToEmbedding response = .ok row) :
    ∃ decoded, StepCycle.decodeAction row = .ok decoded ∧
      (executed response decoded).map (List.map Prod.snd) =
          (chunkActions response).map (decoded :: ·) ∧
        (executed response decoded = .ok (spoken response) ↔ Aligned response) := by
  unfold actionToEmbedding at h
  cases hread : readPart (splitCommas (answer response).2.1).1 with
  | error e =>
      rw [hread] at h
      cases h
  | ok i =>
      rw [hread] at h
      cases h
      exact ⟨i.action, decodeAction_embedding (readPart_valid hread),
        executed_actions response i.action, executed_eq_spoken_iff_aligned hread⟩

/-- Three actions that are written out are carried out as spoken. -/
theorem executed_eq_spoken_three :
    ∃ decoded : NavidaAction ℝ,
      StepCycle.decodeAction (Instr.embedding (.turn false 15)) = .ok decoded ∧
        executed "turn right 15 degree, forward 25 cm, turn left 30 degree".toList decoded =
          .ok (spoken "turn right 15 degree, forward 25 cm, turn left 30 degree".toList) := by
  let response := "turn right 15 degree, forward 25 cm, turn left 30 degree".toList
  have hread : readPart (splitCommas (answer response).2.1).1 = .ok (.turn false 15) := by
    decide +kernel
  have haccept : actionToEmbedding response =
      .ok (Instr.embedding (.turn false 15) : List (PyFloat ℝ)) :=
    congrArg (Except.map Instr.embedding) hread
  have haligned : Aligned response := by
    decide +kernel
  obtain ⟨decoded, hdecode, -, hiff⟩ := executed_eq_spoken_iff haccept
  exact ⟨decoded, hdecode, hiff.mpr haligned⟩

/-- The scan has no match in a first action without a number, and the queue loses
the second action instead. -/
theorem second_action_skipped :
    ∃ (row : List (PyFloat ℝ)) (decoded : NavidaAction ℝ),
      actionToEmbedding "forward, turn left 30 degrees".toList = .ok row ∧
        StepCycle.decodeAction row = .ok decoded ∧ decoded = ⟨25 / 100, 0⟩ ∧
          chunkActions "forward, turn left 30 degrees".toList = .ok ([] : List (NavidaAction ℝ)) ∧
            (spoken "forward, turn left 30 degrees".toList).map Prod.snd =
              [(⟨25 / 100, 0⟩ : NavidaAction ℝ), ⟨0, Trig.radians 30⟩] ∧
              ∀ queue, chunkActions "forward, turn left 30 degrees".toList = .ok queue →
                decoded :: queue ≠
                  (spoken "forward, turn left 30 degrees".toList).map Prod.snd := by
  let response := "forward, turn left 30 degrees".toList
  have hread : readPart (splitCommas (answer response).2.1).1 = .ok (.forward 25) := by
    decide +kernel
  have hfind : (findall response).drop 1 = [] := by
    decide +kernel
  have hspoken : (spokenParts (parts response)).map Prod.snd = [.forward 25, .turn true 30] := by
    decide +kernel
  have hqueue : chunkActions response = .ok ([] : List (NavidaAction ℝ)) := by
    rw [chunkActions, hfind]
    rfl
  have hfirst : (Instr.forward 25).action = (⟨25 / 100, 0⟩ : NavidaAction ℝ) := by
    norm_num [Instr.action]
  have hactions : (spoken response).map Prod.snd =
      [(⟨25 / 100, 0⟩ : NavidaAction ℝ), ⟨0, Trig.radians 30⟩] := by
    show (spokenAt 0 (spokenParts (parts response))).map Prod.snd = _
    rw [spokenAt_actions, hspoken]
    norm_num [Instr.action]
  refine ⟨_, _, congrArg (Except.map Instr.embedding) hread,
    decodeAction_embedding (readPart_valid hread), hfirst, hqueue, hactions, ?_⟩
  intro queue hqueue'
  obtain rfl : [] = queue := Except.ok.inj (hqueue.symm.trans hqueue')
  show (Instr.forward 25).action :: [] ≠ (spoken response).map Prod.snd
  rw [hactions]
  exact fun h => List.cons_ne_nil _ _ (List.cons.inj h).2.symm

end NavidaText
