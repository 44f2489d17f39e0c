/-
# Replacing files atomically, on a file system that can lose power

A file system with names and nodes, each as running programs see it and as it is on the
medium.  The system brings a name or the data of a node to the medium whenever it likes
(`settleName`, `settleData`); when the power is lost, what is on the medium is all there
is.  A writer replaces a file through a temporary one: it makes the temporary file, writes
it piece by piece, has its data brought to the medium, gives it the file's name, and
removes what is left of the temporary name.  A writer may fail at each of its steps, which
only leaves the removal, and it may be killed.

* `FileSystem` : names and nodes, and what a step does to them;
* `Writer`, `Event`, `replacing` : any number of writers, with their steps, their failures
  and the power losses in any order;
* `versions` : the contents that a file has had in a run, newest first;
* `Whole.of_run` : a file always has one of them as a whole, on the medium too, and while the
  power is not lost it is the newest;
* `mem_versions_of_replaced` : what a writer has put in the place of its file is one of them.

Names of temporary files are never names of files to be replaced, and no such name is
drawn twice.
-/
import Mathlib.Data.List.Basic
import Mathlib.Logic.Function.Basic
import Rvln.Machine

namespace AtomicReplace

variable {Path Tag : Type}

/-! ## The file system -/

/-- A name in a directory: a file's own, or that of a temporary file. -/
inductive Name (Path Tag : Type)
  | file (path : Path)
  | temporary (tag : Tag)
  deriving DecidableEq

/-- Bytes of a file. -/
abbrev Content : Type := List UInt8

/-- The names and the data, as they are seen and as they are on the medium.  Nodes from
`nodes` on have not been used. -/
structure FileSystem (Path Tag : Type) where
  names : Name Path Tag → Option ℕ
  stableNames : Name Path Tag → Option ℕ
  data : ℕ → Content
  stableData : ℕ → Content
  nodes : ℕ

namespace FileSystem

section

variable (fs : FileSystem Path Tag)

/-- What a program reads. -/
def read (path : Path) : Option Content := (fs.names (.file path)).map fs.data

/-- What is read after the power was lost. -/
def stableRead (path : Path) : Option Content := (fs.stableNames (.file path)).map fs.stableData

/-- Bytes behind the ones of a node. -/
def append (node : ℕ) (piece : Content) : FileSystem Path Tag :=
  { fs with data := Function.update fs.data node (fs.data node ++ piece) }

/-- The data of a node is brought to the medium. -/
def settleData (node : ℕ) : FileSystem Path Tag :=
  { fs with stableData := Function.update fs.stableData node (fs.data node) }

/-- The power is lost. -/
def losePower : FileSystem Path Tag :=
  { fs with names := fs.stableNames, data := fs.stableData }

variable [DecidableEq Path] [DecidableEq Tag]

/-- A new file of no bytes. -/
def create (name : Name Path Tag) : FileSystem Path Tag :=
  { fs with
    names := Function.update fs.names name (some fs.nodes)
    data := Function.update fs.data fs.nodes []
    stableData := Function.update fs.stableData fs.nodes []
    nodes := fs.nodes + 1 }

/-- A name is brought to the medium. -/
def settleName (name : Name Path Tag) : FileSystem Path Tag :=
  { fs with stableNames := Function.update fs.stableNames name (fs.names name) }

/-- A file gets another name, in place of the file that had it. -/
def rename (source target : Name Path Tag) : FileSystem Path Tag :=
  { fs with
    names := Function.update (Function.update fs.names target (fs.names source)) source none }

/-- A name is removed. -/
def unlink (name : Name Path Tag) : FileSystem Path Tag :=
  { fs with names := Function.update fs.names name none }

end

variable {fs : FileSystem Path Tag} {node m : ℕ}

theorem data_append_self (piece : Content) :
    (fs.append node piece).data node = fs.data node ++ piece := by
  simp [append]

theorem data_append_of_ne (h : m ≠ node) (piece : Content) :
    (fs.append node piece).data m = fs.data m := by
  simp [append, h]

theorem stableData_settleData_self : (fs.settleData node).stableData node = fs.data node := by
  simp [settleData]

theorem stableData_settleData_of_ne (h : m ≠ node) :
    (fs.settleData node).stableData m = fs.stableData m := by
  simp [settleData, h]

variable [DecidableEq Path] [DecidableEq Tag] {name other source target : Name Path Tag}

theorem names_create_self : (fs.create name).names name = some fs.nodes := by simp [create]

theorem names_create_of_ne (h : other ≠ name) : (fs.create name).names other = fs.names other := by
  simp [create, h]

theorem data_create_self : (fs.create name).data fs.nodes = [] := by simp [create]

theorem data_create_of_lt (h : m < fs.nodes) : (fs.create name).data m = fs.data m := by
  simp [create, Nat.ne_of_lt h]

theorem stableData_create_of_lt (h : m < fs.nodes) :
    (fs.create name).stableData m = fs.stableData m := by
  simp [create, Nat.ne_of_lt h]

theorem stableNames_settleName_self : (fs.settleName name).stableNames name = fs.names name := by
  simp [settleName]

theorem stableNames_settleName_of_ne (h : other ≠ name) :
    (fs.settleName name).stableNames other = fs.stableNames other := by
  simp [settleName, h]

theorem names_rename_target (h : target ≠ source) :
    (fs.rename source target).names target = fs.names source := by
  simp [rename, h]

theorem names_rename_of_ne (hs : other ≠ source) (ht : other ≠ target) :
    (fs.rename source target).names other = fs.names other := by
  simp [rename, hs, ht]

theorem names_unlink_of_ne (h : other ≠ name) : (fs.unlink name).names other = fs.names other := by
  simp [unlink, h]

end FileSystem

/-! ## The writers -/

/-- How far a writer has come. -/
inductive Stage (Tag : Type)
  /-- There is no temporary file. -/
  | opening
  /-- The temporary file is open, and these bytes are to be written to it. -/
  | writing (tag : Tag) (node : ℕ) (left : Content)
  /-- All bytes of the temporary file are on the medium. -/
  | synced (tag : Tag) (node : ℕ)
  /-- What is left of the temporary name is to be removed; the file has been replaced or
  has not. -/
  | cleaning (tag : Tag) (replaced : Bool)
  /-- The writer has returned, or has raised. -/
  | ended (replaced : Bool)
  /-- The writer was killed, or the power was lost. -/
  | dead
  deriving DecidableEq

/-- One call. -/
structure Writer (Path Tag : Type) where
  path : Path
  content : Content
  stage : Stage Tag

/-- The file system, the writers in the order they were called, and the temporary names
that have been drawn. -/
structure World (Path Tag : Type) where
  fs : FileSystem Path Tag
  writers : List (Writer Path Tag)
  drawn : List Tag

/-- What can happen. -/
inductive Event (Path Tag : Type)
  /-- A writer is called. -/
  | call (path : Path) (content : Content)
  /-- The `j`-th writer makes its temporary file. -/
  | create (j : ℕ) (tag : Tag)
  /-- It writes its next `n` bytes. -/
  | write (j n : ℕ)
  | sync (j : ℕ)
  | replace (j : ℕ)
  | clean (j : ℕ)
  /-- Its next step raises. -/
  | fail (j : ℕ)
  | kill (j : ℕ)
  | settleName (name : Name Path Tag)
  | settleData (node : ℕ)
  | losePower

namespace Stage

def isWriting : Stage Tag → Bool
  | .writing _ _ _ => true
  | _ => false

def isWritten : Stage Tag → Bool
  | .writing _ _ left => left = []
  | _ => false

def isSynced : Stage Tag → Bool
  | .synced _ _ => true
  | _ => false

def isCleaning : Stage Tag → Bool
  | .cleaning _ _ => true
  | _ => false

/-- The writer has replaced its file. -/
def hasReplaced : Stage Tag → Bool
  | .cleaning _ replaced => replaced
  | .ended replaced => replaced
  | _ => false

/-- A writer whose step raises: without a temporary file there is nothing to remove. -/
def failed : Stage Tag → Stage Tag
  | .opening => .ended false
  | .writing tag _ _ => .cleaning tag false
  | .synced tag _ => .cleaning tag false
  | .cleaning _ _ => .ended false
  | .ended replaced => .ended replaced
  | .dead => .dead

/-- The writer is no more. -/
def killed : Stage Tag → Stage Tag
  | .ended replaced => .ended replaced
  | _ => .dead

theorem exists_of_isWriting {stage : Stage Tag} (h : stage.isWriting = true) :
    ∃ tag node left, stage = .writing tag node left := by
  cases stage with
  | writing tag node left => exact ⟨tag, node, left, rfl⟩
  | opening | synced | cleaning | ended | dead => cases h

theorem exists_of_isWritten {stage : Stage Tag} (h : stage.isWritten = true) :
    ∃ tag node, stage = .writing tag node [] := by
  cases stage with
  | writing tag node left =>
      obtain rfl : left = [] := by simpa [isWritten] using h
      exact ⟨tag, node, rfl⟩
  | opening | synced | cleaning | ended | dead => cases h

theorem exists_of_isSynced {stage : Stage Tag} (h : stage.isSynced = true) :
    ∃ tag node, stage = .synced tag node := by
  cases stage with
  | synced tag node => exact ⟨tag, node, rfl⟩
  | opening | writing | cleaning | ended | dead => cases h

theorem exists_of_isCleaning {stage : Stage Tag} (h : stage.isCleaning = true) :
    ∃ tag replaced, stage = .cleaning tag replaced := by
  cases stage with
  | cleaning tag replaced => exact ⟨tag, replaced, rfl⟩
  | opening | writing | synced | ended | dead => cases h

end Stage

namespace World

variable [DecidableEq Path] [DecidableEq Tag] (w : World Path Tag)

/-- A writer comes to another stage. -/
def advance (j : ℕ) (stage : Stage Tag) : List (Writer Path Tag) :=
  w.writers.modify j fun writer => { writer with stage := stage }

/-- The stage of a writer. -/
def stageOf (j : ℕ) : Option (Stage Tag) := w.writers[j]?.map Writer.stage

/-- A step of the `j`-th writer. -/
def writerStep (w : World Path Tag) (j : ℕ) (step : Writer Path Tag → World Path Tag) :
    World Path Tag :=
  match w.writers[j]? with
  | some writer => step writer
  | none => w

/-- One event. -/
def next (w : World Path Tag) : Event Path Tag → World Path Tag
  | .call path content => { w with writers := w.writers ++ [⟨path, content, .opening⟩] }
  | .create j tag => w.writerStep j fun writer =>
      { fs := w.fs.create (.temporary tag)
        writers := w.advance j (.writing tag w.fs.nodes writer.content)
        drawn := tag :: w.drawn }
  | .write j n => w.writerStep j fun writer =>
      match writer.stage with
      | .writing tag node left =>
          { w with
            fs := w.fs.append node (left.take n)
            writers := w.advance j (.writing tag node (left.drop n)) }
      | _ => w
  | .sync j => w.writerStep j fun writer =>
      match writer.stage with
      | .writing tag node _ =>
          { w with fs := w.fs.settleData node, writers := w.advance j (.synced tag node) }
      | _ => w
  | .replace j => w.writerStep j fun writer =>
      match writer.stage with
      | .synced tag _ =>
          { w with
            fs := w.fs.rename (.temporary tag) (.file writer.path)
            writers := w.advance j (.cleaning tag true) }
      | _ => w
  | .clean j => w.writerStep j fun writer =>
      match writer.stage with
      | .cleaning tag replaced =>
          { w with
            fs := w.fs.unlink (.temporary tag)
            writers := w.advance j (.ended replaced) }
      | _ => w
  | .fail j => w.writerStep j fun writer =>
      { w with writers := w.advance j writer.stage.failed }
  | .kill j => w.writerStep j fun writer =>
      { w with writers := w.advance j writer.stage.killed }
  | .settleName name => { w with fs := w.fs.settleName name }
  | .settleData node => { w with fs := w.fs.settleData node }
  | .losePower =>
      { w with
        fs := w.fs.losePower
        writers := w.writers.map fun writer => { writer with stage := writer.stage.killed } }

/-- A writer takes its steps in their order, and draws a name that is new. -/
def Guard (w : World Path Tag) : Event Path Tag → Prop
  | .create j tag => w.stageOf j = some .opening ∧ tag ∉ w.drawn ∧
      w.fs.names (.temporary tag) = none
  | .write j _ => (w.stageOf j).any Stage.isWriting
  | .sync j => (w.stageOf j).any Stage.isWritten
  | .replace j => (w.stageOf j).any Stage.isSynced
  | .clean j => (w.stageOf j).any Stage.isCleaning
  | _ => True

instance : ∀ e, Decidable (w.Guard e)
  | .create _ _ => inferInstanceAs (Decidable (_ ∧ _ ∧ _))
  | .write _ _ | .sync _ | .replace _ | .clean _ => inferInstanceAs (Decidable (_ = true))
  | .call _ _ | .fail _ | .kill _ | .settleName _ | .settleData _ | .losePower =>
    inferInstanceAs (Decidable True)

end World

section Machine

variable [DecidableEq Path] [DecidableEq Tag]

/-- Any number of writers on a file system. -/
def replacing (fs₀ : FileSystem Path Tag) : Machine (World Path Tag) (Event Path Tag) where
  Init w := w = ⟨fs₀, [], []⟩
  Guard := World.Guard
  next := World.next

instance (fs₀ : FileSystem Path Tag) (w : World Path Tag) (e : Event Path Tag) :
    Decidable ((replacing fs₀).Guard w e) :=
  inferInstanceAs (Decidable (w.Guard e))

end Machine

/-! ## The versions of a file -/

/-- The calls of a run. -/
def calls (es : List (Event Path Tag)) : List (Path × Content) :=
  es.filterMap fun
    | .call path content => some (path, content)
    | _ => none

theorem calls_append (es fs : List (Event Path Tag)) : calls (es ++ fs) = calls es ++ calls fs :=
  List.filterMap_append

/-- What an event puts in the place of a file. -/
def putBy [DecidableEq Path] (calls : List (Path × Content)) (path : Path) :
    Event Path Tag → Option Content
  | .replace j => (calls[j]?).bind fun call => if call.1 = path then some call.2 else none
  | _ => none

/-- What the events of a run put in the place of a file, after some calls. -/
def puts [DecidableEq Path] (path : Path) :
    List (Path × Content) → List (Event Path Tag) → List Content
  | _, [] => []
  | called, e :: es => (putBy called path e).toList ++ puts path (called ++ calls [e]) es

/-- The contents of a file in a run, newest first; the last one is the one before the run. -/
def versions [DecidableEq Path] (fs₀ : FileSystem Path Tag) (es : List (Event Path Tag))
    (path : Path) : List (Option Content) :=
  (puts path [] es).reverse.map some ++ [fs₀.read path]

/-- All of a file system is on the medium. -/
structure FileSystem.AtRest (fs : FileSystem Path Tag) : Prop where
  names : fs.stableNames = fs.names
  data : fs.stableData = fs.data
  used : ∀ name node, fs.names name = some node → node < fs.nodes

/-! ## What holds of the writers -/

namespace Stage

/-- The temporary name that a stage is about. -/
def tag? : Stage Tag → Option Tag
  | .writing tag _ _ => some tag
  | .synced tag _ => some tag
  | .cleaning tag _ => some tag
  | _ => none

/-- The node of an open temporary file. -/
def node? : Stage Tag → Option ℕ
  | .writing _ node _ => some node
  | .synced _ node => some node
  | _ => none

/-- Two stages are about different temporary files. -/
def Apart (a b : Stage Tag) : Prop :=
  (∀ tag, a.tag? = some tag → b.tag? ≠ some tag) ∧ ∀ node, a.node? = some node → b.node? ≠ some node

end Stage

namespace FileSystem

/-- A temporary file that no file's name leads to, on the medium either. -/
def Owned (fs : FileSystem Path Tag) (tag : Tag) (node : ℕ) : Prop :=
  fs.names (.temporary tag) = some node ∧
    ∀ path, fs.names (.file path) ≠ some node ∧ fs.stableNames (.file path) ≠ some node

end FileSystem

/-- What a stage of a writer of some content says of the file system. -/
def Stage.Sound (fs : FileSystem Path Tag) (drawn : List Tag) (content : Content) :
    Stage Tag → Prop
  | .writing tag node left => tag ∈ drawn ∧ fs.Owned tag node ∧ fs.data node ++ left = content
  | .synced tag node => tag ∈ drawn ∧ fs.Owned tag node ∧ fs.data node = content ∧
      fs.stableData node = content
  | .cleaning tag _ => tag ∈ drawn
  | _ => True

/-- The data of every file is on the medium, and every writer is where its stage says, with a
temporary file of its own. -/
structure World.Sound (w : World Path Tag) : Prop where
  used : ∀ name node, w.fs.names name = some node ∨ w.fs.stableNames name = some node →
    node < w.fs.nodes
  settled : ∀ path node, w.fs.names (.file path) = some node ∨
    w.fs.stableNames (.file path) = some node → w.fs.stableData node = w.fs.data node
  writer : ∀ (j : ℕ) (writer : Writer Path Tag), w.writers[j]? = some writer →
    writer.stage.Sound w.fs w.drawn writer.content
  apart : ∀ (j k : ℕ) (a b : Writer Path Tag), j ≠ k → w.writers[j]? = some a →
    w.writers[k]? = some b → a.stage.Apart b.stage

/-- A step leaves the temporary file of a stage alone. -/
def Keeps (fs fs' : FileSystem Path Tag) (stage : Stage Tag) : Prop :=
  ∀ tag node, stage.tag? = some tag → stage.node? = some node → fs.Owned tag node →
    fs'.Owned tag node ∧ fs'.data node = fs.data node ∧
      (fs'.stableData node = fs.stableData node ∨ fs'.stableData node = fs.data node)

theorem Stage.Sound.of_keeps {fs fs' : FileSystem Path Tag} {drawn drawn' : List Tag}
    {content : Content} {stage : Stage Tag} (h : stage.Sound fs drawn content)
    (hdrawn : ∀ tag ∈ drawn, tag ∈ drawn') (hkeeps : Keeps fs fs' stage) :
    stage.Sound fs' drawn' content := by
  cases stage with
  | writing tag node left =>
      obtain ⟨htag, howned, hdata⟩ := h
      obtain ⟨howned', hdata', -⟩ := hkeeps tag node rfl rfl howned
      exact ⟨hdrawn tag htag, howned', hdata' ▸ hdata⟩
  | synced tag node =>
      obtain ⟨htag, howned, hdata, hstable⟩ := h
      obtain ⟨howned', hdata', hstable'⟩ := hkeeps tag node rfl rfl howned
      refine ⟨hdrawn tag htag, howned', hdata'.trans hdata, ?_⟩
      rcases hstable' with h | h
      · exact h.trans hstable
      · exact h.trans hdata
  | cleaning tag replaced => exact hdrawn tag h
  | opening | ended | dead => trivial

theorem Stage.Sound.drawn {fs : FileSystem Path Tag} {drawn : List Tag} {content : Content}
    {stage : Stage Tag} (h : stage.Sound fs drawn content) {tag : Tag}
    (htag : stage.tag? = some tag) : tag ∈ drawn := by
  cases stage with
  | writing t node left =>
      obtain rfl : t = tag := by simpa [Stage.tag?] using htag
      exact h.1
  | synced t node =>
      obtain rfl : t = tag := by simpa [Stage.tag?] using htag
      exact h.1
  | cleaning t replaced =>
      obtain rfl : t = tag := by simpa [Stage.tag?] using htag
      exact h
  | opening | ended | dead => cases htag

theorem Stage.Sound.owned {fs : FileSystem Path Tag} {drawn : List Tag} {content : Content}
    {stage : Stage Tag} (h : stage.Sound fs drawn content) {tag : Tag} {node : ℕ}
    (htag : stage.tag? = some tag) (hnode : stage.node? = some node) : fs.Owned tag node := by
  cases stage with
  | writing t n left =>
      obtain rfl : t = tag := by simpa [Stage.tag?] using htag
      obtain rfl : n = node := by simpa [Stage.node?] using hnode
      exact h.2.1
  | synced t n =>
      obtain rfl : t = tag := by simpa [Stage.tag?] using htag
      obtain rfl : n = node := by simpa [Stage.node?] using hnode
      exact h.2.1
  | opening | cleaning | ended | dead => cases hnode

/-- A failed or killed writer is about no more than before. -/
theorem Stage.Sound.failed {fs : FileSystem Path Tag} {drawn : List Tag} {content : Content}
    {stage : Stage Tag} (h : stage.Sound fs drawn content) :
    stage.failed.Sound fs drawn content := by
  cases stage with
  | writing tag node left => exact h.1
  | synced tag node => exact h.1
  | opening | cleaning | ended | dead => trivial

/-- An open temporary file has a name. -/
theorem Stage.exists_tag {stage : Stage Tag} {node : ℕ} (h : stage.node? = some node) :
    ∃ tag, stage.tag? = some tag := by
  cases stage with
  | writing tag => exact ⟨tag, rfl⟩
  | synced tag => exact ⟨tag, rfl⟩
  | opening | cleaning | ended | dead => cases h

theorem Stage.Apart.symm {a b : Stage Tag} (h : a.Apart b) : b.Apart a :=
  ⟨fun tag hb ha => h.1 tag ha hb, fun node hb ha => h.2 node ha hb⟩

/-- A stage that is about no more than another one. -/
theorem Stage.Apart.of_subset {a a' b : Stage Tag} (h : a.Apart b)
    (htag : ∀ tag, a'.tag? = some tag → a.tag? = some tag)
    (hnode : ∀ node, a'.node? = some node → a.node? = some node) : a'.Apart b :=
  ⟨fun tag ha => h.1 tag (htag tag ha), fun node ha => h.2 node (hnode node ha)⟩

section Steps

variable {w : World Path Tag}

theorem getElem?_advance_self {j : ℕ} {writer : Writer Path Tag} (stage : Stage Tag)
    (hj : w.writers[j]? = some writer) :
    (w.advance j stage)[j]? = some { writer with stage := stage } := by
  simp [World.advance, hj]

theorem getElem?_advance_of_ne {j k : ℕ} (stage : Stage Tag) (hne : k ≠ j) :
    (w.advance j stage)[k]? = w.writers[k]? := by
  simp [World.advance, Ne.symm hne]

/-- A step of one writer. -/
theorem World.Sound.advance (h : w.Sound) {j : ℕ} {writer : Writer Path Tag}
    (hj : w.writers[j]? = some writer) {fs : FileSystem Path Tag} {stage : Stage Tag}
    {drawn : List Tag}
    (hused : ∀ name node, fs.names name = some node ∨ fs.stableNames name = some node →
      node < fs.nodes)
    (hsettled : ∀ path node, fs.names (.file path) = some node ∨
      fs.stableNames (.file path) = some node → fs.stableData node = fs.data node)
    (hdrawn : ∀ tag ∈ w.drawn, tag ∈ drawn) (hstage : stage.Sound fs drawn writer.content)
    (hother : ∀ k other, k ≠ j → w.writers[k]? = some other →
      Keeps w.fs fs other.stage ∧ stage.Apart other.stage) :
    World.Sound ⟨fs, w.advance j stage, drawn⟩ where
  used := hused
  settled := hsettled
  writer k other hk := by
    by_cases hkj : k = j
    · subst hkj
      rw [getElem?_advance_self stage hj, Option.some.injEq] at hk
      exact hk ▸ hstage
    · rw [getElem?_advance_of_ne stage hkj] at hk
      exact (h.writer k other hk).of_keeps hdrawn (hother k other hkj hk).1
  apart k l a b hkl ha hb := by
    by_cases hkj : k = j
    · subst hkj
      rw [getElem?_advance_self stage hj, Option.some.injEq] at ha
      rw [getElem?_advance_of_ne stage (Ne.symm hkl)] at hb
      exact ha ▸ (hother l b (Ne.symm hkl) hb).2
    · rw [getElem?_advance_of_ne stage hkj] at ha
      by_cases hlj : l = j
      · subst hlj
        rw [getElem?_advance_self stage hj, Option.some.injEq] at hb
        exact hb ▸ (hother k a hkj ha).2.symm
      · rw [getElem?_advance_of_ne stage hlj] at hb
        exact h.apart k l a b hkl ha hb

/-- A writer whose stage changes and nothing else. -/
theorem World.Sound.advance_same (h : w.Sound) {j : ℕ} {writer : Writer Path Tag}
    (hj : w.writers[j]? = some writer) {stage : Stage Tag}
    (hstage : stage.Sound w.fs w.drawn writer.content)
    (htag : ∀ tag, stage.tag? = some tag → writer.stage.tag? = some tag)
    (hnode : ∀ node, stage.node? = some node → writer.stage.node? = some node) :
    World.Sound { w with writers := w.advance j stage } :=
  h.advance hj h.used h.settled (fun _ ht => ht) hstage fun k other hkj hk =>
    ⟨fun _ _ _ _ howned => ⟨howned, rfl, .inl rfl⟩,
      (h.apart j k writer other (Ne.symm hkj) hj hk).of_subset htag hnode⟩

/-- Names and data settle. -/
theorem World.Sound.of_fs (h : w.Sound) {fs : FileSystem Path Tag}
    (hused : ∀ name node, fs.names name = some node ∨ fs.stableNames name = some node →
      node < fs.nodes)
    (hsettled : ∀ path node, fs.names (.file path) = some node ∨
      fs.stableNames (.file path) = some node → fs.stableData node = fs.data node)
    (hkeeps : ∀ stage : Stage Tag, Keeps w.fs fs stage) : World.Sound { w with fs := fs } where
  used := hused
  settled := hsettled
  writer j writer hj := (h.writer j writer hj).of_keeps (fun _ ht => ht) (hkeeps writer.stage)
  apart := h.apart

/-- The writer that an event is made for. -/
theorem exists_of_stageOf {j : ℕ} {p : Stage Tag → Bool} (h : (w.stageOf j).any p = true) :
    ∃ writer, w.writers[j]? = some writer ∧ p writer.stage = true := by
  unfold World.stageOf at h
  cases hj : w.writers[j]? with
  | none =>
      rw [hj] at h
      cases h
  | some writer =>
      rw [hj] at h
      exact ⟨writer, rfl, h⟩

/-- A writer behind the others, which is about no temporary file. -/
theorem World.Sound.call (h : w.Sound) (path : Path) (content : Content) :
    World.Sound { w with writers := w.writers ++ [⟨path, content, .opening⟩] } := by
  have hcases {j : ℕ} {writer : Writer Path Tag}
      (hj : (w.writers ++ [⟨path, content, .opening⟩])[j]? = some writer) :
      w.writers[j]? = some writer ∨ (w.writers.length ≤ j ∧ writer.stage = .opening) := by
    rw [List.getElem?_append] at hj
    split at hj
    · exact .inl hj
    · next hlen =>
        obtain ⟨_, rfl⟩ := List.getElem?_eq_some_iff.mp hj
        exact .inr ⟨Nat.not_lt.mp hlen, by rw [List.getElem_singleton]⟩
  refine ⟨h.used, h.settled, fun j writer hj => ?_, fun j k a b hjk ha hb => ?_⟩
  · rcases hcases hj with hj | ⟨-, hstage⟩
    · exact h.writer j writer hj
    · rw [hstage]
      trivial
  · have hopening {c : Writer Path Tag} {stage : Stage Tag} (hc : c.stage = .opening) :
        c.stage.Apart stage := by
      rw [hc]
      exact ⟨nofun, nofun⟩
    rcases hcases ha with ha | ⟨-, ha⟩
    · rcases hcases hb with hb | ⟨-, hb⟩
      · exact h.apart j k a b hjk ha hb
      · exact (hopening hb).symm
    · exact hopening ha

/-- The power is lost, and with it every writer. -/
theorem World.Sound.losePower (h : w.Sound) :
    World.Sound { w with
      fs := w.fs.losePower
      writers := w.writers.map fun writer => { writer with stage := writer.stage.killed } } := by
  have hkilled {j : ℕ} {writer : Writer Path Tag}
      (hj : (w.writers.map fun writer => { writer with stage := writer.stage.killed })[j]? =
        some writer) :
      writer.stage.tag? = none ∧ writer.stage.node? = none ∧
        ∀ fs : FileSystem Path Tag, writer.stage.Sound fs w.drawn writer.content := by
    rw [List.getElem?_map] at hj
    obtain ⟨old, -, rfl⟩ := Option.map_eq_some_iff.mp hj
    cases hs : old.stage <;> exact ⟨rfl, rfl, fun _ => trivial⟩
  refine ⟨fun name node hname => h.used name node (.inr (hname.elim id id)), fun _ _ _ => rfl,
    fun j writer hj => (hkilled hj).2.2 _, fun j k a b _ ha _ => ⟨?_, ?_⟩⟩
  · simp [(hkilled ha).1]
  · simp [(hkilled ha).2.1]

theorem writerStep_eq {j : ℕ} {writer : Writer Path Tag} (hj : w.writers[j]? = some writer)
    (step : Writer Path Tag → World Path Tag) : w.writerStep j step = step writer := by
  rw [World.writerStep, hj]

open FileSystem

/-- Bytes are written to a temporary file. -/
theorem World.Sound.append (h : w.Sound) {j : ℕ} {writer : Writer Path Tag} {tag : Tag}
    {node : ℕ} {left : Content} (hj : w.writers[j]? = some writer)
    (hstage : writer.stage = .writing tag node left) (n : ℕ) :
    World.Sound { w with
      fs := w.fs.append node (left.take n)
      writers := w.advance j (.writing tag node (left.drop n)) } := by
  have hsound := h.writer j writer hj
  rw [hstage] at hsound
  obtain ⟨htag, howned, hdata⟩ := hsound
  refine h.advance hj h.used ?_ (fun t ht => ht) ?_ ?_
  · intro path m hname
    have hne : m ≠ node := by
      rintro rfl
      exact hname.elim (howned.2 path).1 (howned.2 path).2
    rw [data_append_of_ne hne]
    exact h.settled path m hname
  · refine ⟨htag, howned, ?_⟩
    rw [data_append_self, List.append_assoc, List.take_append_drop, hdata]
  · intro k other hkj hk
    have hapart := h.apart j k writer other (Ne.symm hkj) hj hk
    rw [hstage] at hapart
    refine ⟨fun t m ht hm hother => ⟨hother, ?_, .inl rfl⟩, hapart⟩
    apply data_append_of_ne
    rintro rfl
    exact hapart.2 m rfl hm

/-- The data of a temporary file is brought to the medium. -/
theorem World.Sound.sync (h : w.Sound) {j : ℕ} {writer : Writer Path Tag} {tag : Tag}
    {node : ℕ} (hj : w.writers[j]? = some writer) (hstage : writer.stage = .writing tag node []) :
    World.Sound { w with
      fs := w.fs.settleData node
      writers := w.advance j (.synced tag node) } := by
  have hsound := h.writer j writer hj
  rw [hstage] at hsound
  obtain ⟨htag, howned, hdata⟩ := hsound
  rw [List.append_nil] at hdata
  refine h.advance hj h.used ?_ (fun t ht => ht) ?_ ?_
  · intro path m hname
    have hne : m ≠ node := by
      rintro rfl
      exact hname.elim (howned.2 path).1 (howned.2 path).2
    rw [stableData_settleData_of_ne hne]
    exact h.settled path m hname
  · exact ⟨htag, howned, hdata, stableData_settleData_self.trans hdata⟩
  · intro k other hkj hk
    have hapart := h.apart j k writer other (Ne.symm hkj) hj hk
    rw [hstage] at hapart
    refine ⟨fun t m ht hm hother => ⟨hother, rfl, .inl ?_⟩, hapart⟩
    apply stableData_settleData_of_ne
    rintro rfl
    exact hapart.2 m rfl hm

section Next

variable [DecidableEq Path] [DecidableEq Tag]

/-- A temporary file is made. -/
theorem World.Sound.create (h : w.Sound) {j : ℕ} {writer : Writer Path Tag} {tag : Tag}
    (hj : w.writers[j]? = some writer) (htag : tag ∉ w.drawn) :
    World.Sound ⟨w.fs.create (.temporary tag),
      w.advance j (.writing tag w.fs.nodes writer.content), tag :: w.drawn⟩ := by
  have hfile (path : Path) : (w.fs.create (.temporary tag)).names (.file path) =
      w.fs.names (.file path) := names_create_of_ne nofun
  have hfresh {name : Name Path Tag} : w.fs.names name ≠ some w.fs.nodes ∧
      w.fs.stableNames name ≠ some w.fs.nodes :=
    ⟨fun hn => Nat.lt_irrefl _ (h.used _ _ (.inl hn)),
      fun hn => Nat.lt_irrefl _ (h.used _ _ (.inr hn))⟩
  refine h.advance hj ?_ ?_ (fun t ht => List.mem_cons_of_mem _ ht) ?_ ?_
  · intro name node hname
    show node < w.fs.nodes + 1
    by_cases hn : name = .temporary tag
    · rcases hname with hname | hname
      · rw [hn, names_create_self] at hname
        cases hname
        exact Nat.lt_succ_self _
      · exact Nat.lt_succ_of_lt (h.used name node (.inr hname))
    · rw [names_create_of_ne hn] at hname
      exact Nat.lt_succ_of_lt (h.used name node hname)
  · intro path node hname
    rw [hfile] at hname
    have hlt := h.used _ _ hname
    rw [data_create_of_lt hlt, stableData_create_of_lt hlt]
    exact h.settled path node hname
  · refine ⟨List.mem_cons_self, ⟨names_create_self, fun path => ?_⟩, ?_⟩
    · rw [hfile]
      exact hfresh
    · rw [data_create_self, List.nil_append]
  -- a name that was never drawn is nobody else's, and neither is a new file
  · intro k other hkj hk
    have hsound := h.writer k other hk
    refine ⟨fun t node ht hn howned => ?_, ?_, ?_⟩
    · have hlt := h.used _ _ (.inl howned.1)
      refine ⟨⟨?_, fun path => ?_⟩, data_create_of_lt hlt, .inl (stableData_create_of_lt hlt)⟩
      · rw [names_create_of_ne, howned.1]
        rintro ⟨⟩
        exact htag (hsound.drawn ht)
      · rw [hfile]
        exact howned.2 path
    · rintro t ⟨⟩ ht
      exact htag (hsound.drawn ht)
    · rintro n ⟨⟩ hn
      obtain ⟨t, ht⟩ := Stage.exists_tag hn
      exact hfresh.1 (hsound.owned ht hn).1

/-- A file is replaced. -/
theorem World.Sound.replace (h : w.Sound) {j : ℕ} {writer : Writer Path Tag} {tag : Tag}
    {node : ℕ} (hj : w.writers[j]? = some writer) (hstage : writer.stage = .synced tag node) :
    World.Sound { w with
      fs := w.fs.rename (.temporary tag) (.file writer.path)
      writers := w.advance j (.cleaning tag true) } := by
  have hsound := h.writer j writer hj
  rw [hstage] at hsound
  obtain ⟨htag, howned, hdata, hstable⟩ := hsound
  have htarget : (w.fs.rename (.temporary tag) (.file writer.path)).names (.file writer.path) =
      some node := (names_rename_target (by simp)).trans howned.1
  have hfile {path : Path} (hne : path ≠ writer.path) :
      (w.fs.rename (.temporary tag) (.file writer.path)).names (.file path) =
        w.fs.names (.file path) :=
    names_rename_of_ne (by simp) (by simpa using hne)
  refine h.advance hj ?_ ?_ (fun t ht => ht) htag ?_
  · intro name m hname
    by_cases hs : name = .temporary tag
    · rcases hname with hname | hname
      · rw [hs] at hname
        simp [FileSystem.rename] at hname
      · exact h.used name m (.inr hname)
    · by_cases ht : name = .file writer.path
      · rcases hname with hname | hname
        · rw [ht, htarget] at hname
          cases hname
          exact h.used _ _ (.inl howned.1)
        · exact h.used name m (.inr hname)
      · rw [names_rename_of_ne hs ht] at hname
        exact h.used name m hname
  -- the path gets data that are synced; this is why the writer syncs before it renames
  · intro path m hname
    by_cases hp : path = writer.path
    · rcases hname with hname | hname
      · rw [hp, htarget] at hname
        cases hname
        exact hstable.trans hdata.symm
      · exact h.settled path m (.inr hname)
    · rw [hfile hp] at hname
      exact h.settled path m hname
  -- the others have other temporary names and other files
  · intro k other hkj hk
    have hapart := h.apart j k writer other (Ne.symm hkj) hj hk
    rw [hstage] at hapart
    refine ⟨fun t m ht hm hother => ⟨⟨?_, fun path => ⟨?_, (hother.2 path).2⟩⟩, rfl, .inl rfl⟩,
      hapart.of_subset (fun t ht => ht) nofun⟩
    · have hne : t ≠ tag := by
        rintro rfl
        exact hapart.1 t rfl ht
      rw [names_rename_of_ne (by simpa using hne) (by simp), hother.1]
    · by_cases hp : path = writer.path
      · rw [hp, htarget]
        rintro ⟨⟩
        exact hapart.2 node rfl hm
      · rw [hfile hp]
        exact (hother.2 path).1

/-- What is left of a temporary name is removed. -/
theorem World.Sound.clean (h : w.Sound) {j : ℕ} {writer : Writer Path Tag} {tag : Tag}
    {replaced : Bool} (hj : w.writers[j]? = some writer)
    (hstage : writer.stage = .cleaning tag replaced) :
    World.Sound { w with
      fs := w.fs.unlink (.temporary tag)
      writers := w.advance j (.ended replaced) } := by
  have hfile (path : Path) : (w.fs.unlink (.temporary tag)).names (.file path) =
      w.fs.names (.file path) := names_unlink_of_ne nofun
  refine h.advance hj ?_ ?_ (fun t ht => ht) trivial ?_
  · intro name m hname
    refine h.used name m (hname.imp ?_ id)
    intro hname
    by_cases hn : name = .temporary tag
    · rw [hn] at hname
      simp [FileSystem.unlink] at hname
    · rwa [names_unlink_of_ne hn] at hname
  · intro path m hname
    rw [hfile] at hname
    exact h.settled path m hname
  · intro k other hkj hk
    have hapart := h.apart j k writer other (Ne.symm hkj) hj hk
    rw [hstage] at hapart
    refine ⟨fun t m ht hm hother => ⟨⟨?_, fun path => ?_⟩, rfl, .inl rfl⟩, nofun, nofun⟩
    · rw [names_unlink_of_ne, hother.1]
      rintro ⟨⟩
      exact hapart.1 tag rfl ht
    · rw [hfile]
      exact hother.2 path

/-- **One event** keeps the file system sound. -/
theorem World.Sound.next (h : w.Sound) {e : Event Path Tag} (hg : w.Guard e) :
    (w.next e).Sound := by
  cases e with
  | call path content =>
      exact h.call path content
  | create j tag =>
      obtain ⟨hstage, htag, -⟩ := hg
      obtain ⟨writer, hj, -⟩ := Option.map_eq_some_iff.mp hstage
      rw [World.next, writerStep_eq hj]
      exact h.create hj htag
  | write j n =>
      obtain ⟨writer, hj, hstage⟩ := exists_of_stageOf hg
      obtain ⟨tag, node, left, hs⟩ := Stage.exists_of_isWriting hstage
      simp only [World.next, writerStep_eq hj, hs]
      exact h.append hj hs n
  | sync j =>
      obtain ⟨writer, hj, hstage⟩ := exists_of_stageOf hg
      obtain ⟨tag, node, hs⟩ := Stage.exists_of_isWritten hstage
      simp only [World.next, writerStep_eq hj, hs]
      exact h.sync hj hs
  | replace j =>
      obtain ⟨writer, hj, hstage⟩ := exists_of_stageOf hg
      obtain ⟨tag, node, hs⟩ := Stage.exists_of_isSynced hstage
      simp only [World.next, writerStep_eq hj, hs]
      exact h.replace hj hs
  | clean j =>
      obtain ⟨writer, hj, hstage⟩ := exists_of_stageOf hg
      obtain ⟨tag, replaced, hs⟩ := Stage.exists_of_isCleaning hstage
      simp only [World.next, writerStep_eq hj, hs]
      exact h.clean hj hs
  | fail j =>
      cases hj : w.writers[j]? with
      | none =>
          rw [World.next, World.writerStep, hj]
          exact h
      | some writer =>
          rw [World.next, writerStep_eq hj]
          refine h.advance_same hj (h.writer j writer hj).failed ?_ ?_
          · cases hs : writer.stage <;> simp [Stage.failed, Stage.tag?]
          · cases hs : writer.stage <;> simp [Stage.failed, Stage.node?]
  | kill j =>
      cases hj : w.writers[j]? with
      | none =>
          rw [World.next, World.writerStep, hj]
          exact h
      | some writer =>
          rw [World.next, writerStep_eq hj]
          refine h.advance_same hj ?_ ?_ ?_
          · cases hs : writer.stage <;> trivial
          · cases hs : writer.stage <;> simp [Stage.killed, Stage.tag?]
          · cases hs : writer.stage <;> simp [Stage.killed, Stage.node?]
  | settleName name =>
      -- a name on the medium is then the current one, or still the old one
      have hstable (other : Name Path Tag) :
          (w.fs.settleName name).stableNames other = w.fs.names other ∨
            (w.fs.settleName name).stableNames other = w.fs.stableNames other := by
        by_cases hn : other = name
        · rw [hn]
          exact .inl stableNames_settleName_self
        · exact .inr (stableNames_settleName_of_ne hn)
      refine h.of_fs (fun other m hname => ?_) (fun path m hname => ?_)
        fun stage t m _ _ howned => ?_
      · rcases hname with hname | hname
        · exact h.used other m (.inl hname)
        · rcases hstable other with hs | hs <;> rw [hs] at hname
          · exact h.used other m (.inl hname)
          · exact h.used other m (.inr hname)
      · rcases hname with hname | hname
        · exact h.settled path m (.inl hname)
        · rcases hstable (.file path) with hs | hs <;> rw [hs] at hname
          · exact h.settled path m (.inl hname)
          · exact h.settled path m (.inr hname)
      · refine ⟨⟨howned.1, fun path => ⟨(howned.2 path).1, ?_⟩⟩, rfl, .inl rfl⟩
        rcases hstable (.file path) with hs | hs <;> rw [hs]
        · exact (howned.2 path).1
        · exact (howned.2 path).2
  | settleData node =>
      -- the data on the medium are then the current ones, or still the old ones
      have hstable (m : ℕ) : (w.fs.settleData node).stableData m = w.fs.data m ∨
          (w.fs.settleData node).stableData m = w.fs.stableData m := by
        by_cases hm : m = node
        · rw [hm]
          exact .inl stableData_settleData_self
        · exact .inr (stableData_settleData_of_ne hm)
      refine h.of_fs h.used (fun path m hname => ?_) fun stage t m _ _ howned =>
        ⟨howned, rfl, (hstable m).symm⟩
      rcases hstable m with hs | hs
      · exact hs
      · exact hs.trans (h.settled path m hname)
  | losePower => exact h.losePower

end Next

end Steps

/-! ## What is read -/

/-- The calls of the writers. -/
def World.called (w : World Path Tag) : List (Path × Content) :=
  w.writers.map fun writer => (writer.path, writer.content)

section Reads

variable {w : World Path Tag}

open FileSystem

theorem called_advance (fs : FileSystem Path Tag) (j : ℕ) (stage : Stage Tag) (drawn : List Tag) :
    World.called ⟨fs, w.advance j stage, drawn⟩ = w.called := by
  apply List.ext_getElem?
  intro k
  by_cases hkj : k = j
  · subst hkj
    cases hk : w.writers[k]? <;> simp [World.called, World.advance, hk]
  · simp only [World.called, List.getElem?_map, getElem?_advance_of_ne stage hkj]

/-- A step that leaves the files' names and data alone. -/
theorem read_eq {fs fs' : FileSystem Path Tag} {path : Path}
    (hname : fs'.names (.file path) = fs.names (.file path))
    (hdata : ∀ node, fs.names (.file path) = some node → fs'.data node = fs.data node) :
    fs'.read path = fs.read path := by
  show (fs'.names (.file path)).map fs'.data = (fs.names (.file path)).map fs.data
  rw [hname]
  cases hn : fs.names (.file path) with
  | none => rfl
  | some node => rw [Option.map_some, Option.map_some, hdata node hn]

theorem stableRead_eq {fs fs' : FileSystem Path Tag} {path : Path}
    (hname : fs'.stableNames (.file path) = fs.stableNames (.file path))
    (hdata : ∀ node, fs.stableNames (.file path) = some node →
      fs'.stableData node = fs.stableData node) :
    fs'.stableRead path = fs.stableRead path := by
  rw [stableRead, stableRead, hname]
  cases hn : fs.stableNames (.file path) with
  | none => rfl
  | some node => rw [Option.map_some, Option.map_some, hdata node hn]

variable [DecidableEq Path] [DecidableEq Tag]

theorem called_next (e : Event Path Tag) : (w.next e).called = w.called ++ calls [e] := by
  have hstep (j : ℕ) {step : Writer Path Tag → World Path Tag}
      (h : ∀ writer, (step writer).called = w.called) :
      (w.writerStep j step).called = w.called ++ [] := by
    rw [List.append_nil, World.writerStep]
    split
    · exact h _
    · rfl
  cases e with
  | call path content => simp [World.next, World.called, calls]
  | create j tag => exact hstep j fun writer => called_advance _ j _ _
  | write j n =>
      refine hstep j fun writer => ?_
      split
      · exact called_advance _ j _ _
      · rfl
  | sync j | replace j | clean j =>
      refine hstep j fun writer => ?_
      split
      · exact called_advance _ j _ _
      · rfl
  | fail j | kill j => exact hstep j fun writer => called_advance _ j _ _
  | settleName name => exact (List.append_nil _).symm
  | settleData node => exact (List.append_nil _).symm
  | losePower =>
      simp only [World.next, World.called, List.map_map]
      exact (List.append_nil _).symm

/-- What is read in the end of a step: the content that was put, or else what was read before,
or what was on the medium when the power is lost. -/
theorem read_next (h : w.Sound) {e : Event Path Tag} (hg : w.Guard e) (path : Path) :
    (∃ content, putBy w.called path e = some content ∧ (w.next e).fs.read path = some content) ∨
      (putBy w.called path e = none ∧ ((w.next e).fs.read path = w.fs.read path ∨
        (e = .losePower ∧ (w.next e).fs.read path = w.fs.stableRead path))) := by
  cases e with
  | call | settleName => exact .inr ⟨rfl, .inl rfl⟩
  | losePower => exact .inr ⟨rfl, .inr ⟨rfl, rfl⟩⟩
  | settleData node => exact .inr ⟨rfl, .inl rfl⟩
  | create j tag =>
      obtain ⟨writer, hj, -⟩ := Option.map_eq_some_iff.mp hg.1
      refine .inr ⟨rfl, .inl ?_⟩
      rw [World.next, writerStep_eq hj]
      exact read_eq (names_create_of_ne (by simp)) fun node hn =>
        data_create_of_lt (h.used _ _ (.inl hn))
  | write j n =>
      obtain ⟨writer, hj, hstage⟩ := exists_of_stageOf hg
      refine .inr ⟨rfl, .inl ?_⟩
      obtain ⟨tag, node, left, hs⟩ := Stage.exists_of_isWriting hstage
      have hsound := h.writer j writer hj
      rw [hs] at hsound
      simp only [World.next, writerStep_eq hj, hs]
      -- the file that grows has no name but a temporary one
      refine read_eq rfl fun m hn => data_append_of_ne ?_ _
      rintro rfl
      exact (hsound.2.1.2 path).1 hn
  | sync j =>
      obtain ⟨writer, hj, hstage⟩ := exists_of_stageOf hg
      refine .inr ⟨rfl, .inl ?_⟩
      obtain ⟨tag, node, hs⟩ := Stage.exists_of_isWritten hstage
      simp only [World.next, writerStep_eq hj, hs]
      rfl
  | replace j =>
      obtain ⟨writer, hj, hstage⟩ := exists_of_stageOf hg
      have hput : putBy w.called path (.replace j : Event Path Tag) =
          if writer.path = path then some writer.content else none := by
        simp [putBy, World.called, hj]
      obtain ⟨tag, node, hs⟩ := Stage.exists_of_isSynced hstage
      have hsound := h.writer j writer hj
      rw [hs] at hsound
      obtain ⟨-, howned, hdata, -⟩ := hsound
      simp only [World.next, writerStep_eq hj, hs, hput]
      -- only the writer's own file gets other content
      by_cases hp : writer.path = path
      · refine .inl ⟨writer.content, if_pos hp, ?_⟩
        rw [← hp]
        show ((w.fs.rename _ _).names _).map w.fs.data = _
        rw [names_rename_target (by simp), howned.1, Option.map_some, hdata]
      · refine .inr ⟨if_neg hp, .inl (read_eq (names_rename_of_ne (by simp) ?_) fun _ _ => rfl)⟩
        simpa using Ne.symm hp
  | clean j =>
      obtain ⟨writer, hj, hstage⟩ := exists_of_stageOf hg
      refine .inr ⟨rfl, .inl ?_⟩
      obtain ⟨tag, replaced, hs⟩ := Stage.exists_of_isCleaning hstage
      simp only [World.next, writerStep_eq hj, hs]
      exact read_eq (names_unlink_of_ne (by simp)) fun _ _ => rfl
  | fail j | kill j =>
      refine .inr ⟨rfl, .inl ?_⟩
      simp only [World.next, World.writerStep]
      split <;> rfl

/-- What is on the medium after a step was there before, or was read before. -/
theorem stableRead_next (h : w.Sound) {e : Event Path Tag} (hg : w.Guard e) (path : Path) :
    (w.next e).fs.stableRead path = w.fs.stableRead path ∨
      (w.next e).fs.stableRead path = w.fs.read path := by
  cases e with
  | call | losePower => exact .inl rfl
  | settleName name =>
      -- the data of a named file have settled before its name does
      by_cases hn : .file path = name
      · right
        show ((w.fs.settleName name).stableNames (.file path)).map w.fs.stableData = _
        rw [hn, stableNames_settleName_self, ← hn]
        show _ = (w.fs.names (.file path)).map w.fs.data
        cases hname : w.fs.names (.file path) with
        | none => rfl
        | some node => rw [Option.map_some, Option.map_some, h.settled path node (.inl hname)]
      · exact .inl (stableRead_eq (stableNames_settleName_of_ne hn) fun _ _ => rfl)
  | settleData node =>
      refine .inl (stableRead_eq rfl fun m hm => ?_)
      by_cases hmn : m = node
      · rw [hmn, World.next, stableData_settleData_self, ← hmn, h.settled path m (.inr hm)]
      · exact stableData_settleData_of_ne hmn
  | create j tag =>
      obtain ⟨writer, hj, -⟩ := Option.map_eq_some_iff.mp hg.1
      rw [World.next, writerStep_eq hj]
      exact .inl (stableRead_eq rfl fun node hn => stableData_create_of_lt (h.used _ _ (.inr hn)))
  | sync j =>
      obtain ⟨writer, hj, hstage⟩ := exists_of_stageOf hg
      obtain ⟨tag, node, hs⟩ := Stage.exists_of_isWritten hstage
      have hsound := h.writer j writer hj
      rw [hs] at hsound
      simp only [World.next, writerStep_eq hj, hs]
      refine .inl (stableRead_eq rfl fun m hn => stableData_settleData_of_ne ?_)
      rintro rfl
      exact (hsound.2.1.2 path).2 hn
  | write j | replace j | clean j =>
      left
      simp only [World.next, World.writerStep]
      split
      · split <;> rfl
      · rfl
  | fail j | kill j =>
      left
      simp only [World.next, World.writerStep]
      split <;> rfl

end Reads

/-! ## Runs -/

/-- The same call, at another stage. -/
def Writer.Earlier (old writer : Writer Path Tag) : Prop :=
  old.path = writer.path ∧ old.content = writer.content ∧
    (writer.stage.hasReplaced = true → old.stage.hasReplaced = true)

theorem Writer.Earlier.refl (writer : Writer Path Tag) : writer.Earlier writer := ⟨rfl, rfl, id⟩

theorem exists_earlier_advance {w : World Path Tag} {j k : ℕ} {stage : Stage Tag}
    (hstage : ∀ old, w.writers[k]? = some old → stage.hasReplaced = true →
      old.stage.hasReplaced = true)
    {writer : Writer Path Tag} (hj : (w.advance k stage)[j]? = some writer) :
    ∃ old, w.writers[j]? = some old ∧ old.Earlier writer := by
  by_cases hjk : j = k
  · subst hjk
    cases hold : w.writers[j]? with
    | none => simp [World.advance, hold] at hj
    | some old =>
        rw [getElem?_advance_self stage hold] at hj
        obtain rfl := Option.some.inj hj
        exact ⟨old, rfl, rfl, rfl, hstage old hold⟩
  · rw [getElem?_advance_of_ne stage hjk] at hj
    exact ⟨writer, hj, .refl writer⟩

section Runs

variable [DecidableEq Path]

/-- A run and one more event. -/
theorem puts_snoc (path : Path) (called : List (Path × Content)) (es : List (Event Path Tag))
    (e : Event Path Tag) :
    puts path called (es ++ [e]) = puts path called es ++
      (putBy (called ++ calls es) path e).toList := by
  induction es generalizing called with
  | nil => simp [puts, calls]
  | cons d es ih =>
      have hcalls : calls (d :: es) = calls [d] ++ calls es := calls_append [d] es
      simp only [List.cons_append, puts, ih, hcalls, List.append_assoc]

/-- The newest content of a file is one that a step has put in its place, or else the newest
before the step. -/
theorem versions_snoc (fs₀ : FileSystem Path Tag) (es : List (Event Path Tag))
    (e : Event Path Tag) (path : Path) :
    versions fs₀ (es ++ [e]) path =
      ((putBy (calls es) path e).toList.map some) ++ versions fs₀ es path := by
  rw [versions, puts_snoc, List.nil_append, versions]
  cases putBy (calls es) path e <;> simp

/-- What holds in the end of a run. -/
structure Whole (fs₀ : FileSystem Path Tag) (es : List (Event Path Tag))
    (w : World Path Tag) : Prop where
  sound : w.Sound
  called : w.called = calls es
  read : ∀ path, w.fs.read path ∈ versions fs₀ es path
  stableRead : ∀ path, w.fs.stableRead path ∈ versions fs₀ es path
  newest : .losePower ∉ es → ∀ path, (versions fs₀ es path).head? = some (w.fs.read path)

theorem Whole.init {fs₀ : FileSystem Path Tag} (h₀ : fs₀.AtRest) : Whole fs₀ [] ⟨fs₀, [], []⟩ where
  sound :=
    { used := fun name node hname => h₀.used name node (hname.elim id fun h => h₀.names ▸ h)
      settled := fun _ node _ => congrFun h₀.data node
      writer := nofun
      apart := nofun }
  called := rfl
  read _ := List.mem_singleton.mpr rfl
  stableRead path := by
    show (fs₀.stableNames (.file path)).map fs₀.stableData ∈ [fs₀.read path]
    rw [h₀.names, h₀.data]
    exact List.mem_singleton.mpr rfl
  newest _ _ := rfl

variable [DecidableEq Tag]

/-- A file is whole after a step. -/
theorem Whole.snoc {fs₀ : FileSystem Path Tag} {es : List (Event Path Tag)} {w : World Path Tag}
    (h : Whole fs₀ es w) {e : Event Path Tag} (hg : w.Guard e) :
    Whole fs₀ (es ++ [e]) (w.next e) := by
  have hkept (path : Path) {content : Option Content} (hc : content ∈ versions fs₀ es path) :
      content ∈ versions fs₀ (es ++ [e]) path := by
    rw [versions_snoc]
    exact List.mem_append_right _ hc
  refine ⟨h.sound.next hg, ?_, fun path => ?_, fun path => ?_, fun hpower path => ?_⟩
  · rw [called_next, h.called, calls_append]
  · rcases read_next h.sound hg path with ⟨content, hput, hread⟩ | ⟨-, hread | ⟨-, hread⟩⟩
    · rw [h.called] at hput
      rw [versions_snoc, hput, hread]
      exact List.mem_cons_self
    · exact hread ▸ hkept path (h.read path)
    · exact hread ▸ hkept path (h.stableRead path)
  · rcases stableRead_next h.sound hg path with hread | hread
    · exact hread ▸ hkept path (h.stableRead path)
    · exact hread ▸ hkept path (h.read path)
  · rw [List.mem_append, not_or] at hpower
    rw [versions_snoc]
    rcases read_next h.sound hg path with ⟨content, hput, hread⟩ | ⟨hput, hread | ⟨he, -⟩⟩
    · rw [h.called] at hput
      rw [hput, hread]
      rfl
    · rw [h.called] at hput
      rw [hput, hread]
      exact h.newest hpower.1 path
    · exact absurd (he ▸ List.mem_singleton.mpr rfl) hpower.2

/-- **A file is always whole**: what is read in the end of a run, and what is on the medium,
is one of the contents that the file has had, and while the power is not lost the newest is
read. -/
theorem Whole.of_run {fs₀ : FileSystem Path Tag} (h₀ : fs₀.AtRest) {es : List (Event Path Tag)}
    {w : World Path Tag} (h : (replacing fs₀).Run es w) : Whole fs₀ es w := by
  induction h with
  | init hs =>
      rw [show _ = _ from hs]
      exact .init h₀
  | snoc _ hg ih => exact ih.snoc hg

/-- A writer has replaced its file before a step or in it. -/
theorem replaced_next {w : World Path Tag} {e : Event Path Tag} (hg : w.Guard e) {j : ℕ}
    {writer : Writer Path Tag} (hj : (w.next e).writers[j]? = some writer)
    (hr : writer.stage.hasReplaced = true) :
    putBy w.called writer.path e = some writer.content ∨
      ∃ old, w.writers[j]? = some old ∧ old.Earlier writer := by
  cases e with
  | call path content =>
      have hj : (w.writers ++ [⟨path, content, .opening⟩])[j]? = some writer := hj
      rw [List.getElem?_append] at hj
      split at hj
      · exact .inr ⟨writer, hj, .refl writer⟩
      · obtain ⟨hlen, rfl⟩ := List.getElem?_eq_some_iff.mp hj
        rw [List.getElem_singleton] at hr
        cases hr
  | create k tag =>
      obtain ⟨old, hk, -⟩ := Option.map_eq_some_iff.mp hg.1
      rw [World.next, writerStep_eq hk] at hj
      exact .inr (exists_earlier_advance (by simp [Stage.hasReplaced]) hj)
  | write k n =>
      obtain ⟨old, hk, hstage⟩ := exists_of_stageOf hg
      obtain ⟨tag, node, left, hs⟩ := Stage.exists_of_isWriting hstage
      simp only [World.next, writerStep_eq hk, hs] at hj
      exact .inr (exists_earlier_advance (by simp [Stage.hasReplaced]) hj)
  | sync k =>
      obtain ⟨old, hk, hstage⟩ := exists_of_stageOf hg
      obtain ⟨tag, node, hs⟩ := Stage.exists_of_isWritten hstage
      simp only [World.next, writerStep_eq hk, hs] at hj
      exact .inr (exists_earlier_advance (by simp [Stage.hasReplaced]) hj)
  | replace k =>
      obtain ⟨old, hk, hstage⟩ := exists_of_stageOf hg
      obtain ⟨tag, node, hs⟩ := Stage.exists_of_isSynced hstage
      simp only [World.next, writerStep_eq hk, hs] at hj
      -- the writer that replaces in this step, or one that did before
      by_cases hjk : j = k
      · subst hjk
        rw [getElem?_advance_self _ hk] at hj
        obtain rfl := Option.some.inj hj
        exact .inl (by simp [putBy, World.called, hk])
      · rw [getElem?_advance_of_ne _ hjk] at hj
        exact .inr ⟨writer, hj, .refl writer⟩
  | clean k =>
      obtain ⟨old, hk, hstage⟩ := exists_of_stageOf hg
      obtain ⟨tag, replaced, hs⟩ := Stage.exists_of_isCleaning hstage
      simp only [World.next, writerStep_eq hk, hs] at hj
      refine .inr (exists_earlier_advance (fun old' hold' hr => ?_) hj)
      obtain rfl := Option.some.inj (hk.symm.trans hold')
      rw [hs]
      exact hr
  | fail k | kill k =>
      right
      cases hk : w.writers[k]? with
      | none =>
          rw [World.next, World.writerStep, hk] at hj
          exact ⟨writer, hj, .refl writer⟩
      | some old =>
          rw [World.next, writerStep_eq hk] at hj
          refine exists_earlier_advance (fun old' hold' hr => ?_) hj
          obtain rfl := Option.some.inj (hk.symm.trans hold')
          cases hs : old.stage <;> rw [hs] at hr <;> first | exact hr | cases hr
  | settleName name => exact .inr ⟨writer, hj, .refl writer⟩
  | settleData node => exact .inr ⟨writer, hj, .refl writer⟩
  | losePower =>
      have hj : (w.writers.map fun writer =>
        { writer with stage := writer.stage.killed })[j]? = some writer := hj
      rw [List.getElem?_map] at hj
      obtain ⟨old, hold, rfl⟩ := Option.map_eq_some_iff.mp hj
      refine .inr ⟨old, hold, rfl, rfl, fun hr => ?_⟩
      cases hs : old.stage <;> simp only [hs] at hr <;> first | exact hr | cases hr

/-- What a writer has put in the place of its file is one of the file's contents. -/
theorem mem_versions_of_replaced {fs₀ : FileSystem Path Tag} (h₀ : fs₀.AtRest)
    {es : List (Event Path Tag)} {w : World Path Tag} (h : (replacing fs₀).Run es w) {j : ℕ}
    {writer : Writer Path Tag} (hj : w.writers[j]? = some writer)
    (hr : writer.stage.hasReplaced = true) :
    some writer.content ∈ versions fs₀ es writer.path := by
  induction h generalizing j writer with
  | init hs =>
      rw [show _ = _ from hs] at hj
      cases hj
  | @snoc es w e hrun hg ih =>
      rw [versions_snoc, ← (Whole.of_run h₀ hrun).called]
      rcases replaced_next hg hj hr with hput | ⟨old, hold, hpath, hcontent, hearlier⟩
      · rw [hput]
        exact List.mem_append_left _ (List.mem_singleton.mpr rfl)
      · rw [← hpath, ← hcontent]
        exact List.mem_append_right _ (ih hold (hearlier hr))

end Runs

end AtomicReplace
