/-
This file compares the descents of the tree through its internal nodes.

A descent goes from page to page until it comes to a leaf. What the cache does
meanwhile does not matter: over the pages that it serves, the descent is a walk
that only looks at their data. The two descents decode an internal node by
themselves. `btree_first` reads the child at byte 2 of the first cell. `btree_find`
looks for the first cell with a key that is not less, and then reads the child at
byte 2 behind the pointer to that cell, in the array of pointers. They go to the
same child when the two words happen to be equal.
-/

import TinyDb.Lib.Run
import TinyDb.PinnedPages

namespace TinyDb

open Heaps Bytes Runs Relation

variable {test : Nat → Except Fault Bool} {remaining start : Nat}
  {visit : PageData → Except Fault Descent}

/-! ### Descents over a view -/

/-- The leaf at which a descent ends, over the pages of a view. -/
def walk (visit : PageData → Except Fault Descent) (view : View) :
    Nat → UInt32 → Except Fault (Option UInt32)
  | 0, _ => return none
  | depth + 1, page =>
    match view page with
    | none => return none
    | some data => do
      match ← visit data with
      | .leaf .. => return some page
      | .child next _ => walk visit view depth next
      | .unknown => return none

/-- A descent goes from the one page of the view to the other. -/
def Goes (visit : PageData → Except Fault Descent) (view : View) (page next : UInt32) : Prop :=
  ∃ data stackCell, view page = some data ∧ visit data = .ok (.child next stackCell)

/-- A descent ends at the page of the view. -/
def Ends (visit : PageData → Except Fault Descent) (view : View) (page : UInt32) : Prop :=
  ∃ data cell isEnd stackCell, view page = some data ∧
    visit data = .ok (.leaf cell isEnd stackCell)

section Walks

variable {visit other : PageData → Except Fault Descent} {view : View} {depth : Nat}
  {start page leaf next : UInt32}

/-- A walk ends at the page where it is, or goes to the child. -/
theorem walk_cases (run : walk visit view (depth + 1) page = .ok (some leaf)) :
    (Ends visit view page ∧ leaf = page) ∨
      ∃ next, Goes visit view page next ∧ walk visit view depth next = .ok (some leaf) := by
  rw [walk] at run
  cases found : view page with
  | none =>
    rw [found] at run
    cases run
  | some data =>
    simp only [found, bind_eq_ok] at run
    obtain ⟨descent, visiting, run⟩ := run
    cases descent with
    | leaf cell isEnd stackCell =>
      exact Or.inl ⟨⟨data, cell, isEnd, stackCell, found, visiting⟩,
        (Option.some.inj (Except.ok.inj run)).symm⟩
    | child next stackCell => exact Or.inr ⟨next, ⟨data, stackCell, found, visiting⟩, run⟩
    | unknown => cases run

theorem walk_of_ends (ends : Ends visit view page) :
    walk visit view (depth + 1) page = .ok (some page) := by
  obtain ⟨data, cell, isEnd, stackCell, found, visiting⟩ := ends
  simp only [walk, found, visiting, ok_bind, pure_eq_ok]

theorem walk_of_goes (goes : Goes visit view page next) :
    walk visit view (depth + 1) page = walk visit view depth next := by
  obtain ⟨data, stackCell, found, visiting⟩ := goes
  simp only [walk, found, visiting, ok_bind]

theorem walk_path (run : walk visit view depth page = .ok (some leaf)) :
    ReflTransGen (Goes visit view) page leaf ∧ Ends visit view leaf := by
  induction depth generalizing page with
  | zero => cases run
  | succ depth inductionHypothesis =>
    rcases walk_cases run with ⟨ends, rfl⟩ | ⟨next, goes, rest⟩
    · exact ⟨.refl, ends⟩
    · obtain ⟨path, ends⟩ := inductionHypothesis rest
      exact ⟨.head goes path, ends⟩

/-- A descent that goes where another one goes, all the way, ends where it ends. -/
theorem walk_agrees
    (same : ∀ {page next}, ReflTransGen (Goes visit view) start page → Goes visit view page next →
      Goes other view page next)
    (last : Ends other view leaf) (run : walk visit view depth start = .ok (some leaf)) :
    walk other view depth start = .ok (some leaf) := by
  induction depth generalizing start with
  | zero => cases run
  | succ depth inductionHypothesis =>
    rcases walk_cases run with ⟨-, rfl⟩ | ⟨next, goes, rest⟩
    · exact walk_of_ends last
    · rw [walk_of_goes (same .refl goes)]
      exact inductionHypothesis (fun path => same (.head goes path)) rest

theorem goes_unique : Relator.RightUnique (Goes visit view) := by
  rintro page one two ⟨data, cell, found, visiting⟩ ⟨_, _, again, visitingAgain⟩
  rw [found] at again
  cases again
  rw [visiting] at visitingAgain
  cases visitingAgain
  rfl

theorem Ends.not_goes (ends : Ends visit view page) : ¬Goes visit view page next := by
  rintro ⟨data, cell, found, visiting⟩
  obtain ⟨_, _, _, _, again, leaf⟩ := ends
  rw [found] at again
  cases again
  rw [visiting] at leaf
  cases leaf

/-- From every page on the way but the last the descent goes on to the end. -/
theorem path_to_leaf (path : ReflTransGen (Goes visit view) start leaf)
    (ends : Ends visit view leaf) (here : ReflTransGen (Goes visit view) start page) :
    page = leaf ∨ ∃ next, Goes visit view page next ∧ ReflTransGen (Goes visit view) next leaf := by
  rcases here.total_of_right_unique goes_unique path with ahead | behind
  · exact ahead.cases_head
  · rcases behind.cases_head with same | ⟨child, step, -⟩
    · exact Or.inl same.symm
    · exact absurd step ends.not_goes

end Walks

/-- If the page is not in the view, it cannot be pinned. -/
def Misses (Free : PageCache → View → Prop) (view : View) (page : UInt32) : Prop :=
  view page = none → ∀ cache, Free cache view →
    ∃ next, pageCacheGet cache page = .ok (none, next)

namespace Serves

variable {demand : Demand} {Free : PageCache → View → Prop}
  {Held : PageCache → View → Addr → Prop} {cache : PageCache} {view : View} {tree : BTree}
  {isForward : Bool} {visit : PageData → Except Fault Descent} {depth : Nat} {page leaf : UInt32}

/-- The descent through the cache ends where the walk over the view ends. -/
theorem follow (serves : Serves demand Free Held) (free : Free cache view)
    (run : walk visit view depth page = .ok (some leaf)) (stack : List (UInt32 × Nat)) :
    Ensures demand (descend tree isForward visit depth page stack cache) fun out =>
      Free out.2 view ∧ ∃ cursor data stackCell, out.1 = some cursor ∧ cursor.page = leaf ∧
        view leaf = some data ∧ visit data = .ok (.leaf cursor.cell cursor.isEnd stackCell) := by
  induction depth generalizing cache page stack with
  | zero => cases run
  | succ depth inductionHypothesis =>
    rcases walk_cases run with ⟨⟨data, cell, isEnd, stackCell, found, visiting⟩, rfl⟩ |
      ⟨next, ⟨data, stackCell, found, visiting⟩, rest⟩
    · have returns : Ensures demand (visit data) (· = .leaf cell isEnd stackCell) := by
        rw [visiting]
        exact Ensures.ok rfl
      refine (serves.read free found returns).bind ?_
      rintro ⟨_, middle⟩ ⟨⟨_, rfl, rfl⟩, free⟩
      exact Ensures.ok ⟨free, _, data, stackCell, rfl, rfl, found, visiting⟩
    · have returns : Ensures demand (visit data) (· = .child next stackCell) := by
        rw [visiting]
        exact Ensures.ok rfl
      refine (serves.read free found returns).bind ?_
      rintro ⟨_, middle⟩ ⟨⟨_, rfl, rfl⟩, free⟩
      exact inductionHypothesis free rest _

/-- Where the cache pins no child outside the view, the walk ends where the descent ended. -/
theorem walk_of_descend (serves : Serves .must Free Held) (free : Free cache view)
    (here : Misses Free view page)
    (misses : ∀ parent child, Goes visit view parent child → Misses Free view child)
    {stack : List (UInt32 × Nat)} {cursor : BTreeCursor} {next : PageCache}
    (run : descend tree isForward visit depth page stack cache = .ok (some cursor, next)) :
    walk visit view depth page = .ok (some cursor.page) := by
  induction depth generalizing cache page stack with
  | zero => cases run
  | succ depth inductionHypothesis =>
    cases found : view page with
    | none =>
      obtain ⟨missed, miss⟩ := here found _ free
      simp only [descend, pinRead, miss] at run
      cases run
    | some data =>
      cases visiting : visit data with
      | error fault =>
        rw [descend, serves.read_fault free found visiting] at run
        cases run
      | ok descent =>
        have returns : Ensures .must (visit data) (· = descent) := ⟨descent, visiting, rfl⟩
        obtain ⟨⟨_, middle⟩, reading, ⟨result, rfl, same⟩, free⟩ := serves.read free found returns
        rw [descend, reading, same] at run
        cases descent with
        | leaf cell isEnd stackCell =>
          obtain ⟨same, -⟩ := Prod.mk.inj (Except.ok.inj run)
          rw [← Option.some.inj same]
          exact walk_of_ends ⟨data, cell, isEnd, stackCell, found, visiting⟩
        | child next stackCell =>
          have goes : Goes visit view page next := ⟨data, stackCell, found, visiting⟩
          rw [walk_of_goes goes]
          exact inductionHypothesis free (misses _ next goes) run
        | unknown => cases run

end Serves

/-! ### The children of an internal node -/

/-- The page is an internal node. -/
def Internal (data : PageData) : Prop :=
  ∃ header, getNodeHeader data = .ok header ∧ isInternalPage header.pageType = true

/-- The key of a cell of an internal node, if it has eight bytes. -/
def separatorAt (data : PageData) (index : Nat) : Except Fault (Option UInt64) := do
  let cellOffset ← getCellPointer data index
  let keySize ← readU16 data (cellOffset.toNat + 4)
  if keySize = 8 then
    let cellKey ← readKey data (cellOffset.toNat + 8)
    return some cellKey
  else return none

/-- The key is at most every key of eight bytes in the cells of an internal node. -/
def AtMost (key : UInt64) (data : PageData) : Prop :=
  ∀ header index separator, getNodeHeader data = .ok header → index < header.cellCount.toNat →
    separatorAt data index = .ok (some separator) → key ≤ separator

/-- The child that `btree_first` reads: the word at byte 2 of the first cell. -/
def firstChild (data : PageData) : Except Fault UInt32 := do
  let header ← getNodeHeader data
  let rightChild ← getRightChild data
  if header.cellCount > 0 then
    let cellOffset ← getCellPointer data 0
    readU32 data (cellOffset.toNat + 2)
  else return rightChild

/-- The child that `btree_find` reads for a key that is at most every key: the word at byte 2 behind
the pointer to the first cell with a key of eight bytes. -/
def findChild (data : PageData) : Except Fault UInt32 := do
  let header ← getNodeHeader data
  let rightChild ← getRightChild data
  let found ← firstCell (fun index => do return (← separatorAt data index).isSome)
    header.cellCount.toNat 0
  match found with
  | some targetCell => readU32 data (btreeLeafHeaderSize + targetCell * btreeCellPointerSize + 2)
  | none => return rightChild

section Children

variable {data : PageData} {key : UInt64} {next : UInt32} {header : BTreeNodeHeader}

theorem not_leaf_of_internal (internal : isInternalPage header.pageType = true) :
    ¬isLeafPage header.pageType = true := by
  intro leaf
  rw [isInternalPage, beq_iff_eq] at internal
  rw [internal] at leaf
  exact absurd leaf (by decide)

theorem firstCell_congr {again : Nat → Except Fault Bool}
    (same : ∀ index, start ≤ index → index < start + remaining → test index = again index) :
    firstCell test remaining start = firstCell again remaining start := by
  induction remaining generalizing start with
  | zero => rfl
  | succ remaining inductionHypothesis =>
    rw [firstCell, firstCell, same _ (Nat.le_refl _) (by omega),
      inductionHypothesis fun index above below => same _ (by omega) (by omega)]

theorem firstCell_lt {found : Nat} (run : firstCell test remaining start = .ok (some found)) :
    found < start + remaining := by
  induction remaining generalizing start with
  | zero => cases run
  | succ remaining inductionHypothesis =>
    simp only [firstCell, bind_eq_ok] at run
    obtain ⟨passed, -, run⟩ := run
    split at run
    · obtain rfl := Option.some.inj (Except.ok.inj run)
      omega
    · have less := inductionHypothesis run
      omega

theorem internalCellReaches_eq (data : PageData) (key : UInt64) (index : Nat) :
    internalCellReaches data key index = (do
      let separator ← separatorAt data index
      return separator.any (key ≤ ·)) := by
  simp only [internalCellReaches, separatorAt, bind_assoc]
  congr 1
  funext cellOffset
  congr 1
  funext keySize
  split
  · simp only [bind_assoc]
    congr 1
  · rfl

/-- Where the key is at most every key, `btree_find` stops at the first key of eight bytes. -/
theorem AtMost.firstCell (atMost : AtMost key data) (read : getNodeHeader data = .ok header) :
    TinyDb.firstCell (internalCellReaches data key) header.cellCount.toNat 0 =
      TinyDb.firstCell (fun index => do return (← separatorAt data index).isSome)
        header.cellCount.toNat 0 := by
  refine firstCell_congr fun index _ inside => ?_
  rw [internalCellReaches_eq]
  cases found : separatorAt data index with
  | error fault => rfl
  | ok separator =>
    cases separator with
    | none => rfl
    | some separator =>
      have below := atMost _ _ _ read (by omega) found
      simp only [ok_bind, Option.any_some, decide_eq_true below, Option.isSome_some]

theorem internal_iff (read : getNodeHeader data = .ok header) :
    Internal data ↔ isInternalPage header.pageType = true := by
  constructor
  · rintro ⟨_, again, internal⟩
    cases (read.symm.trans again)
    exact internal
  · exact fun internal => ⟨header, read, internal⟩

theorem firstVisit_internal (internal : Internal data) :
    firstVisit data = firstChild data >>= fun child => return .child child 0 := by
  obtain ⟨header, read, internal⟩ := internal
  simp only [firstVisit, firstChild, read, ok_bind, if_neg (not_leaf_of_internal internal),
    if_pos internal, bind_assoc]
  congr 1
  funext rightChild
  split
  · simp only [bind_assoc]
  · rfl

theorem firstVisit_child_iff :
    (∃ stackCell, firstVisit data = .ok (.child next stackCell)) ↔
      Internal data ∧ firstChild data = .ok next := by
  by_cases internal : Internal data
  · simp only [firstVisit_internal _, internal, true_and, bind_eq_ok]
    constructor
    · rintro ⟨_, child, reading, same⟩
      cases same
      exact reading
    · exact fun reading => ⟨0, next, reading, rfl⟩
  · refine iff_of_false ?_ fun both => internal both.1
    rintro ⟨stackCell, visiting⟩
    obtain ⟨header, read⟩ := getNodeHeader_returns _
    rw [internal_iff read] at internal
    simp only [firstVisit, read, ok_bind] at visiting
    split at visiting <;> cases visiting

/-- Where the key is at most every key, `btree_find` goes to the child at the first of them. -/
theorem findVisit_internal (internal : Internal data) (atMost : AtMost key data) :
    (∃ stackCell, findVisit key data = .ok (.child next stackCell)) ↔
      findChild data = .ok next := by
  obtain ⟨header, read, internal⟩ := internal
  simp only [findVisit, findChild, read, ok_bind, if_neg (not_leaf_of_internal internal),
    if_pos internal, atMost.firstCell _]
  cases getRightChild data with
  | error fault =>
    constructor
    · rintro ⟨_, run⟩
      cases run
    · intro run
      cases run
  | ok rightChild =>
    cases search : firstCell (fun index => do return (← separatorAt _ _).isSome)
        _ 0 with
    | error fault =>
      constructor
      · rintro ⟨_, run⟩
        cases run
      · intro run
        cases run
    | ok found =>
      cases found with
      | none =>
        simp only [ok_bind, Option.getD_none, if_neg (Nat.lt_irrefl _), pure_eq_ok,
          Except.ok.injEq, Descent.child.injEq, exists_and_left, exists_eq', and_true]
      | some targetCell =>
        have inside := firstCell_lt search
        rw [Nat.zero_add] at inside
        simp only [ok_bind, Option.getD_some, if_pos inside, bind_eq_ok]
        constructor
        · rintro ⟨_, child, reading, same⟩
          cases same
          exact reading
        · exact fun reading => ⟨targetCell, next, reading, rfl⟩

theorem not_internal_of_leaf {cell stackCell : Nat} {isEnd : Bool}
    (visiting : firstVisit data = .ok (.leaf cell isEnd stackCell)) : ¬Internal data := by
  intro internal
  rw [firstVisit_internal internal, bind_eq_ok] at visiting
  obtain ⟨child, -, same⟩ := visiting
  cases same

end Children

/-! ### The same leaf -/

/-- The pages that `btree_first` visits. -/
def Leftmost (view : View) (tree : BTree) (page : UInt32) : Prop :=
  ReflTransGen (Goes firstVisit view) tree.rootPage page

/-- On the way of `btree_first` the child that `btree_find` reads is the one it reads itself. -/
def WordsAgree (view : View) (tree : BTree) : Prop :=
  ∀ page data, Leftmost view tree page → view page = some data → Internal data →
    findChild data = firstChild data

/-- Both descents return, with cursors in the same leaf. -/
def SameLeaf (cache : PageCache) (tree : BTree) (key : UInt64) : Prop :=
  ∃ found first afterFind afterFirst,
    btreeFind cache tree key = .ok (some found, afterFind) ∧
      btreeFirst cache tree = .ok (some first, afterFirst) ∧ found.page = first.page

/-- No page is the child of two pages, and the root is not a child, whichever descent reads the
children; and a child that is not stored cannot be pinned. -/
structure IsTree (Free : PageCache → View → Prop) (view : View) (tree : BTree) (key : UInt64) :
    Prop where
  parents : ∀ {parent other child},
    Goes firstVisit view parent child ∨ Goes (findVisit key) view parent child →
      Goes firstVisit view other child ∨ Goes (findVisit key) view other child → parent = other
  rootless : ∀ parent, ¬(Goes firstVisit view parent tree.rootPage ∨
    Goes (findVisit key) view parent tree.rootPage)
  misses : ∀ parent child, Goes (findVisit key) view parent child → Misses Free view child

section Agreement

variable {Free : PageCache → View → Prop} {Held : PageCache → View → Addr → Prop}
  {cache : PageCache} {view : View} {tree : BTree} {key : UInt64} {leaf : UInt32} {data : PageData}

theorem findVisit_ends {descent : Descent} (ends : Ends firstVisit view leaf)
    (here : view leaf = some data) (readable : findVisit key data = .ok descent) :
    Ends (findVisit key) view leaf := by
  obtain ⟨_, cell, isEnd, stackCell, again, visiting⟩ := ends
  rw [here] at again
  cases again
  have notInternal := not_internal_of_leaf visiting
  obtain ⟨header, read⟩ := getNodeHeader_returns _
  rw [internal_iff read] at notInternal
  simp only [firstVisit, read, ok_bind] at visiting
  split at visiting
  · rename_i leaf
    simp only [findVisit, read, ok_bind, if_pos leaf, bind_eq_ok] at readable
    obtain ⟨found, search, answer⟩ := readable
    cases found with
    | none =>
      refine ⟨data, header.cellCount.toNat, true, 0, here, ?_⟩
      simp only [findVisit, read, ok_bind, if_pos leaf, search, pure_eq_ok]
    | some index =>
      refine ⟨data, index, false, 0, here, ?_⟩
      simp only [findVisit, read, ok_bind, if_pos leaf, search, pure_eq_ok]
  · cases visiting

theorem WordsAgree.walk (words : WordsAgree view tree)
    (stored : TinyDb.walk firstVisit view btreeMaxDepth tree.rootPage = .ok (some leaf))
    (last : Ends (findVisit key) view leaf)
    (least : ∀ page data, Leftmost view tree page → view page = some data → Internal data →
      AtMost key data) :
    TinyDb.walk (findVisit key) view btreeMaxDepth tree.rootPage = .ok (some leaf) := by
  refine walk_agrees (fun way goes => ?_) last stored
  obtain ⟨data, stackCell, inView, visiting⟩ := goes
  obtain ⟨internal, reading⟩ := firstVisit_child_iff.mp ⟨stackCell, visiting⟩
  rw [← words _ _ way inView internal,
    ← findVisit_internal internal (least _ _ way inView internal)] at reading
  obtain ⟨targetCell, visiting⟩ := reading
  exact ⟨data, targetCell, inView, visiting⟩

theorem IsTree.wordsAgree (isTree : IsTree Free view tree key)
    (stored : TinyDb.walk firstVisit view btreeMaxDepth tree.rootPage = .ok (some leaf))
    (find : TinyDb.walk (findVisit key) view btreeMaxDepth tree.rootPage = .ok (some leaf))
    (least : ∀ page data, Leftmost view tree page → view page = some data → Internal data →
      AtMost key data) :
    WordsAgree view tree := by
  intro page data way inView internal
  obtain ⟨path, ends⟩ := walk_path stored
  rcases path_to_leaf path ends way with rfl | ⟨next, goes, rest⟩
  · obtain ⟨_, _, _, _, last, visiting⟩ := ends
    rw [inView] at last
    exact absurd (Option.some.inj last ▸ internal) (not_internal_of_leaf visiting)
  · -- the ways from the root to the leaf are the same, so `btree_find` takes this step too
    obtain ⟨_, targetCell, foundView, visitingFind⟩ :=
      paths_agree path (walk_path find).1 goes rest isTree.parents isTree.rootless
    obtain ⟨_, stackCell, goesView, visiting⟩ := goes
    rw [inView] at foundView goesView
    cases foundView
    cases goesView
    rw [(firstVisit_child_iff.mp ⟨stackCell, visiting⟩).2]
    exact (findVisit_internal internal (least _ _ way inView internal)).mp
      ⟨targetCell, visitingFind⟩

/-- For a key that is at most every key on the leftmost way, `btree_find` ends at the leaf of
`btree_first` if on that way the two read the same children; and in a tree only then. -/
theorem descents_agree_iff (serves : Serves .must Free Held) (free : Free cache view)
    (opened : tree.isOpen = true)
    (stored : walk firstVisit view btreeMaxDepth tree.rootPage = .ok (some leaf))
    (here : view leaf = some data) (readable : ∃ descent, findVisit key data = .ok descent)
    (least : ∀ page data, Leftmost view tree page → view page = some data → Internal data →
      AtMost key data) :
    (WordsAgree view tree → SameLeaf cache tree key) ∧
      (IsTree Free view tree key → (SameLeaf cache tree key ↔ WordsAgree view tree)) := by
  obtain ⟨descent, readable⟩ := readable
  obtain ⟨⟨_, afterFirst⟩, runFirst, -, first, _, _, rfl, firstLeaf, -, -⟩ :
      Ensures .must (descend tree true firstVisit btreeMaxDepth tree.rootPage [] cache) _ :=
    serves.follow free stored []
  have returnsFirst : btreeFirst cache tree = .ok (some first, afterFirst) := by
    rw [btreeFirst, if_pos opened, runFirst]
  have sufficient : WordsAgree view tree → SameLeaf cache tree key := by
    intro words
    have last := findVisit_ends (walk_path stored).2 here readable
    obtain ⟨⟨_, afterFind⟩, runFind, -, found, _, _, rfl, findLeaf, -, -⟩ :
        Ensures .must (descend tree true (findVisit key) btreeMaxDepth tree.rootPage [] cache) _ :=
      serves.follow free (words.walk stored last least) []
    refine ⟨found, first, afterFind, afterFirst, ?_, returnsFirst, findLeaf.trans firstLeaf.symm⟩
    rw [btreeFind, if_pos opened, runFind]
  refine ⟨sufficient, fun isTree => ⟨?_, sufficient⟩⟩
  rintro ⟨found, other, afterFind, _, find, again, same⟩
  rw [returnsFirst] at again
  cases (Prod.mk.inj (Except.ok.inj again)).1
  rw [btreeFind, if_pos opened] at find
  have root : Misses Free view tree.rootPage := by
    intro absent
    rw [btreeMaxDepth, walk, absent] at stored
    cases stored
  have walkFind := serves.walk_of_descend free root isTree.misses find
  rw [same, firstLeaf] at walkFind
  exact isTree.wordsAgree stored walkFind least

end Agreement

/-! ### Two levels -/

/-- An internal node with one cell, at byte 100, with the key 5. The word at byte 2 of the cell is
8; the word at byte 2 behind its pointer is given. -/
def internalPage (child : UInt8) : PageData := fun index =>
  match index.val with
  | 0 => btreePageTypeInternal
  | 2 => 1
  | 11 => 100
  | 15 => child
  | 105 => 8
  | 108 => 5
  | _ => 0

/-- A leaf without cells. -/
def leafPage : PageData := fun index => if index.val = 0 then btreePageTypeLeaf else 0

/-- The internal node at page 1, and two leaves. -/
def twoLevels (child : UInt8) : View :=
  viewOf [1, 2, 8] fun page => if page = 1 then internalPage child else leafPage

section TwoLevels

variable {child : UInt8} {page next : UInt32} {data : PageData} {key : UInt64}

theorem internalPage_words (either : child = 2 ∨ child = 8) :
    getNodeHeader (internalPage child) = .ok ⟨btreePageTypeInternal, 1, 0, 0⟩ ∧
      separatorAt (internalPage child) 0 = .ok (some 5) ∧
      firstChild (internalPage child) = .ok 8 ∧
      findChild (internalPage child) = .ok child.toUInt32 := by
  rcases either with rfl | rfl
  · decide
  · decide

theorem internalPage_internal (either : child = 2 ∨ child = 8) : Internal (internalPage child) :=
  ⟨_, (internalPage_words either).1, by decide⟩

theorem internalPage_atMost (either : child = 2 ∨ child = 8) (small : key ≤ 5) :
    AtMost key (internalPage child) := by
  obtain ⟨header, separator, -⟩ := internalPage_words either
  intro _ index other again inside found
  cases (header.symm.trans again)
  obtain rfl : index = 0 := Nat.lt_one_iff.mp inside
  rw [separator] at found
  exact Option.some.inj (Except.ok.inj found) ▸ small

theorem leafPage_visits (key : UInt64) : firstVisit leafPage = .ok (.leaf 0 true 0) ∧
    findVisit key leafPage = .ok (.leaf 0 true 0) :=
  ⟨rfl, rfl⟩

theorem twoLevels_eq_some :
    twoLevels child page = some data ↔
      page = 1 ∧ data = internalPage child ∨ (page = 2 ∨ page = 8) ∧ data = leafPage := by
  rw [twoLevels, viewOf_eq_some]
  by_cases root : page = 1
  · subst root
    simp [eq_comm]
  · simp [root, eq_comm]

/-- A descent goes from the internal node to the child it reads there, and from no leaf. -/
theorem twoLevels_goes {target : UInt32}
    (root : ∀ next, (∃ stackCell, visit (internalPage child) = .ok (.child next stackCell)) ↔
      next = target) (leaf : visit leafPage = .ok (.leaf 0 true 0)) :
    Goes visit (twoLevels child) page next ↔ page = 1 ∧ next = target := by
  constructor
  · rintro ⟨data, stackCell, found, visiting⟩
    rcases twoLevels_eq_some.mp found with ⟨rfl, rfl⟩ | ⟨-, rfl⟩
    · exact ⟨rfl, (root next).mp ⟨stackCell, visiting⟩⟩
    · rw [leaf] at visiting
      cases visiting
  · rintro ⟨rfl, rfl⟩
    obtain ⟨stackCell, visiting⟩ := (root next).mpr rfl
    exact ⟨_, stackCell, twoLevels_eq_some.mpr (Or.inl ⟨rfl, rfl⟩), visiting⟩

theorem twoLevels_first (either : child = 2 ∨ child = 8) :
    Goes firstVisit (twoLevels child) page next ↔ page = 1 ∧ next = 8 := by
  refine twoLevels_goes (fun next => ?_) (leafPage_visits 0).1
  rw [firstVisit_child_iff, (internalPage_words either).2.2.1, Except.ok.injEq, eq_comm]
  exact and_iff_right (internalPage_internal either)

theorem twoLevels_find (either : child = 2 ∨ child = 8) (small : key ≤ 5) :
    Goes (findVisit key) (twoLevels child) page next ↔ page = 1 ∧ next = child.toUInt32 := by
  refine twoLevels_goes (fun next => ?_) (leafPage_visits key).2
  rw [findVisit_internal (internalPage_internal either) (internalPage_atMost either small),
    (internalPage_words either).2.2.2, Except.ok.injEq, eq_comm]

theorem twoLevels_walk (goes : Goes visit (twoLevels child) 1 next) (among : next = 2 ∨ next = 8)
    (leaf : visit leafPage = .ok (.leaf 0 true 0)) :
    walk visit (twoLevels child) btreeMaxDepth 1 = .ok (some next) := by
  rw [btreeMaxDepth, walk_of_goes goes]
  exact walk_of_ends ⟨_, _, _, _, twoLevels_eq_some.mpr (Or.inr ⟨among, rfl⟩), leaf⟩

/-- Any contents can be put into the pages of a file. -/
theorem exists_stored (content : UInt32 → PageData) (pages : List UInt32) :
    ∃ pager : Pager, pager.Quiet ∧ (∀ page ∈ [1, 2, 8], pager.Holds page) ∧
      ∀ page ∈ pages, diskPage pager.fd.file page = content page := by
  induction pages with
  | nil =>
    generalize grown : (fun pager => (pagerAllocatePage pager).2)^[7] onePage = pager
    obtain ⟨quiet, one, two, eight⟩ :
        pager.Quiet ∧ pager.Holds 1 ∧ pager.Holds 2 ∧ pager.Holds 8 := by
      rw [← grown]
      decide +kernel
    exact ⟨pager, quiet, by simp [one, two, eight], nofun⟩
  | cons page rest inductionHypothesis =>
    obtain ⟨pager, quiet, holds, stored⟩ := inductionHypothesis
    obtain ⟨next, write, quietNext⟩ := quiet.write page (content page)
    obtain ⟨-, -, -, -, file⟩ := pagerWritePage_ok write
    refine ⟨next, quietNext,
      fun other inside => (pagerWritePage_same write).holds (holds _ inside),
      fun other member => ?_⟩
    rw [file]
    by_cases same : other = page
    · rw [same, diskPage_write_self]
    · rw [diskPage_write_other _ (PageData.toBytes_length _) same]
      exact stored _ ((List.mem_cons.mp member).resolve_left same)

/-- The two levels can be stored in a file and opened. -/
theorem exists_twoLevels (child : UInt8) : ∃ pager : Pager,
    Within pager [1, 2, 8] (pageCacheCreate 256 4 (some pager)) (twoLevels child) := by
  obtain ⟨pager, quiet, holds, stored⟩ := exists_stored
    (fun page => if page = 1 then internalPage child else leafPage) [1, 2, 8]
  have fits : ([1, 2, 8] : List UInt32).length ≤ clampMaxPages 256 4 := by decide
  refine ⟨pager, fun _ => fits, holds, pager, _, [], created_ready 256 4 quiet, .refl _,
    List.nil_subset _, ?_⟩
  funext page
  rw [twoLevels, viewOf, viewOf]
  split
  · rename_i member
    rw [stored _ member]
  · rfl

end TwoLevels

theorem descents_agree_iff_two_levels : ∃ pager : Pager,
    Internal (internalPage 8) ∧
      Within pager [1, 2, 8] (pageCacheCreate 256 4 (some pager)) (twoLevels 8) ∧
      SameLeaf (pageCacheCreate 256 4 (some pager)) (btreeOpen 1) 3 := by
  have either : (8 : UInt8) = 2 ∨ (8 : UInt8) = 8 := Or.inr rfl
  obtain ⟨pager, within⟩ := exists_twoLevels 8
  have small : (3 : UInt64) ≤ 5 := by decide
  have first := (twoLevels_first either).mpr ⟨rfl, rfl⟩
  have stored := twoLevels_walk first (Or.inr rfl) (leafPage_visits 0).1
  have pages : ∀ {page data}, twoLevels 8 page = some data → Internal data →
      data = internalPage 8 := by
    intro page data found internal
    rcases twoLevels_eq_some.mp found with ⟨-, same⟩ | ⟨-, rfl⟩
    · exact same
    · exact absurd internal (not_internal_of_leaf (leafPage_visits 0).1)
  have isTree : IsTree (Within pager [1, 2, 8]) (twoLevels 8) (btreeOpen 1) 3 := by
    refine ⟨?_, ?_, fun parent next goes absent => ?_⟩
    · intro parent other next
      rw [twoLevels_first either, twoLevels_find either small, twoLevels_first either,
        twoLevels_find either small]
      rintro (⟨rfl, -⟩ | ⟨rfl, -⟩) (⟨rfl, -⟩ | ⟨rfl, -⟩) <;> rfl
    · intro parent
      rw [twoLevels_first either, twoLevels_find either small]
      rintro (⟨-, root⟩ | ⟨-, root⟩)
      · exact absurd root (by decide)
      · exact absurd root (by decide)
    · obtain ⟨-, rfl⟩ := (twoLevels_find either small).mp goes
      have present : twoLevels 8 8 = some leafPage :=
        twoLevels_eq_some.mpr (Or.inr ⟨Or.inr rfl, rfl⟩)
      exact absurd (present.symm.trans absent) nofun
  have words : WordsAgree (twoLevels 8) (btreeOpen 1) := by
    intro page data _ found internal
    rw [pages found internal]
    rfl
  refine ⟨pager, internalPage_internal either, within, ?_⟩
  refine ((descents_agree_iff (within_serves _ [1, 2, 8]) within rfl stored
    (twoLevels_eq_some.mpr (Or.inr ⟨Or.inr rfl, rfl⟩)) ⟨_, (leafPage_visits 3).2⟩
    fun page data _ found internal => ?_).2 isTree).mpr words
  rw [pages found internal]
  exact internalPage_atMost either small

/-- The key 3 is at most the only key of the internal node, but `btree_find` ends at page 2 and
`btree_first` at page 8. -/
theorem descents_disagree : ∃ (pager : Pager) (found first : BTreeCursor)
    (afterFind afterFirst : PageCache),
    Within pager [1, 2, 8] (pageCacheCreate 256 4 (some pager)) (twoLevels 2) ∧
      AtMost 3 (internalPage 2) ∧
      btreeFind (pageCacheCreate 256 4 (some pager)) (btreeOpen 1) 3 =
        .ok (some found, afterFind) ∧ found.page = 2 ∧
      btreeFirst (pageCacheCreate 256 4 (some pager)) (btreeOpen 1) =
        .ok (some first, afterFirst) ∧ first.page = 8 := by
  have either : (2 : UInt8) = 2 ∨ (2 : UInt8) = 8 := Or.inl rfl
  have small : (3 : UInt64) ≤ 5 := by decide
  obtain ⟨pager, within⟩ := exists_twoLevels 2
  have walkFirst := twoLevels_walk ((twoLevels_first either).mpr ⟨rfl, rfl⟩) (Or.inr rfl)
    (leafPage_visits 0).1
  have walkFind := twoLevels_walk ((twoLevels_find either small).mpr ⟨rfl, rfl⟩) (Or.inl rfl)
    (leafPage_visits 3).2
  obtain ⟨⟨_, afterFirst⟩, runFirst, -, first, _, _, rfl, firstLeaf, -, -⟩ :
      Ensures .must (btreeFirst (pageCacheCreate 256 4 (some pager)) (btreeOpen 1)) _ :=
    (within_serves _ [1, 2, 8]).follow within walkFirst []
  obtain ⟨⟨_, afterFind⟩, runFind, -, found, _, _, rfl, findLeaf, -, -⟩ :
      Ensures .must (btreeFind (pageCacheCreate 256 4 (some pager)) (btreeOpen 1) 3) _ :=
    (within_serves _ [1, 2, 8]).follow within walkFind []
  exact ⟨pager, found, first, afterFind, afterFirst, within, internalPage_atMost either small,
    runFind, findLeaf, runFirst, firstLeaf⟩

end TinyDb
