/-! # Sorting by a comparison

A stable sort by a comparison that nobody has checked. A short list is sorted by insertion. A longer
one is cut into runs, stretches that are in order already or are left to be sorted, and neighbouring
runs are merged in the order that a balanced tree over the whole list would have. Stretches of a few
elements are sorted in two halves, which are merged from both ends at once. The two ends meet if the
comparison is consistent. If they do not, the sort breaks down and has no result.
-/

namespace TextTemplate

namespace Sorting

variable {α : Type} (lt : α → α → Bool)

/-! ## Insertion -/

/-- An element put into a list in descending order, in front of those that it does not come
before. -/
def insertDescending (item : α) : List α → List α
  | [] => [item]
  | greatest :: rest =>
    if lt item greatest then greatest :: insertDescending item rest
    else item :: greatest :: rest

/-- Elements put one after the other behind those of a sorted list, each as far to its end as it
goes. -/
def insertAll (sorted items : List α) : List α :=
  (items.foldl (fun descending item => insertDescending lt item descending) sorted.reverse).reverse

/-- Elements put in order one after the other. -/
def insertionSort (items : List α) : List α := insertAll lt [] items

/-! ## Merging -/

/-- Two sorted lists merged from the front. Of two equal elements that of the first list is
taken. -/
def mergeFront (left right : List α) : List α := left.merge right fun a b => !lt b a

/-- Two sorted lists merged from the end. Of two equal elements that of the second list is
taken. -/
def mergeBack (left right : List α) : List α :=
  (mergeFront (fun a b => lt b a) right.reverse left.reverse).reverse

/-- Two sorted lists merged from the side on which the shorter one stands. -/
def merge (left right : List α) : List α :=
  if left.length ≤ right.length then mergeFront lt left right else mergeBack lt left right

/-- How many of the first `steps` elements of a merge come from the first list. -/
def takenLeft : Nat → List α → List α → Nat
  | steps + 1, x :: xs, y :: ys =>
    if lt y x then takenLeft steps (x :: xs) ys else takenLeft steps xs (y :: ys) + 1
  | steps, xs, _ => min steps xs.length

/-- Two sorted lists merged from both ends at once, from either end as many elements as the first
list has. What is taken from the end must be what is left by the front. -/
def mergeHalves? (left right : List α) : Option (List α) :=
  let steps := left.length
  let front := takenLeft lt steps left right
  let back := takenLeft (fun a b => lt b a) steps right.reverse left.reverse
  let middle :=
    (left.take back).drop front ++ (right.take (right.length - back)).drop (steps - front)
  if front ≤ back ∧ back - front ≤ right.length - steps then
    some ((mergeFront lt left right).take steps ++ middle ++
      ((mergeFront (fun a b => lt b a) right.reverse left.reverse).take steps).reverse)
  else none

/-! ## A few elements -/

/-- Two elements in order. -/
def inOrder (first second : α) : α × α :=
  if lt second first then (second, first) else (first, second)

/-- Four elements of which the first and the last are in place. -/
def between (least left right greatest : α) : List α :=
  let (left, right) := inOrder lt left right
  [least, left, right, greatest]

/-- Two sorted pairs merged from both ends. -/
def mergePairs (a b c d : α) : List α :=
  match lt c a, lt d b with
  | false, false => between lt a b c d
  | false, true => between lt a c d b
  | true, false => between lt c a b d
  | true, true => between lt c a d b

/-- Four elements in order. -/
def sortFour (first second third fourth : α) : List α :=
  let (a, b) := inOrder lt first second
  let (c, d) := inOrder lt third fourth
  mergePairs lt a b c d

/-- Half of a few elements in order: if there are enough, four are sorted first, and the others are
inserted. -/
def sortHalf (enough : Bool) (items : List α) : List α :=
  match enough, items with
  | true, a :: b :: c :: d :: rest => insertAll lt (sortFour lt a b c d) rest
  | _, items => insertionSort lt items

/-- A few elements in order. -/
def smallSort? (items : List α) : Option (List α) :=
  let half := items.length / 2
  let enough := decide (8 ≤ items.length)
  mergeHalves? lt (sortHalf lt enough (items.take half)) (sortHalf lt enough (items.drop half))

/-- How many elements are a few. -/
def fewElements : Nat := 32

/-! ## Runs -/

/-- A stretch of a list, in order already or still to be sorted. -/
structure Run (α : Type) where
  items : List α
  isSorted : Bool

/-- The number of elements that follow one another by steps of one kind. -/
def steadyLength (step : α → α → Bool) : α → List α → Nat
  | _, [] => 0
  | previous, next :: rest =>
    if step previous next then steadyLength step next rest + 1 else 0

/-- The length of the longest stretch in front that ascends or strictly descends, and whether it
descends. -/
def leadingRun : List α → Nat × Bool
  | [] => (0, false)
  | [_] => (1, false)
  | first :: second :: rest =>
    if lt second first then
      (steadyLength (fun a b => lt b a) first (second :: rest) + 1, true)
    else (steadyLength (fun a b => !lt b a) first (second :: rest) + 1, false)

/-- The run in front, and the rest. Stretches in order count if they have at least `least` elements;
otherwise the run is a few elements, which an eager sort puts in order at once, or `least` elements
in no order. -/
def nextRun? (eager : Bool) (least : Nat) (items : List α) : Option (Run α × List α) :=
  let (length, descends) := leadingRun lt items
  if least ≤ length then
    let stretch := items.take length
    some (⟨if descends then stretch.reverse else stretch, true⟩, items.drop length)
  else if eager then do
    let sorted ← smallSort? lt (items.take fewElements)
    pure (⟨sorted, true⟩, items.drop fewElements)
  else some (⟨items.take least, false⟩, items.drop least)

/-- The runs of a list. Each has an element, so there are no more of them than elements. -/
def runs? (eager : Bool) (least : Nat) : Nat → List α → Option (List (Run α))
  | _, [] => some []
  | 0, items => some [⟨items, false⟩]
  | bound + 1, items => do
    let (run, rest) ← nextRun? lt eager least items
    let runs ← runs? eager least bound rest
    pure (run :: runs)

/-- The elements of a run in order. -/
def Run.sorted? (sort? : List α → Option (List α)) (run : Run α) : Option (List α) :=
  if run.isSorted then some run.items else sort? run.items

/-- Two neighbouring runs as one. Two that are still to be sorted stay so, as long as there is room
to sort them together. -/
def joinRuns? (sort? : List α → Option (List α)) (room : Nat) (left right : Run α) :
    Option (Run α) :=
  if left.isSorted || right.isSorted || decide (room < left.items.length + right.items.length) then
    do
      let leftItems ← left.sorted? sort?
      let rightItems ← right.sorted? sort?
      pure ⟨merge lt leftItems rightItems, true⟩
  else some ⟨left.items ++ right.items, false⟩

/-- The number of leading zeros of a word of 64 bits. -/
def leadingZeros (word : Nat) : Nat := if word = 0 then 64 else 63 - word.log2

/-- How deep in a balanced tree over `length` elements the node stands that joins the stretches from
`first` to `middle` and from `middle` to `last`. -/
def joinDepth (length first middle last : Nat) : Nat :=
  let scale := (Nat.pow 2 62 + length - 1) / length
  leadingZeros ((scale * (first + middle)) ^^^ (scale * (middle + last)))

/-- Join a run with those in front of it that are to be joined at `depth` or deeper. Each waits with
the depth at which it is joined with what follows. -/
def collapse? (sort? : List α → Option (List α)) (room depth : Nat) :
    List (Nat × Run α) → Run α → Option (List (Nat × Run α) × Run α)
  | [], run => some ([], run)
  | (waitingDepth, left) :: waiting, run =>
    if depth ≤ waitingDepth then do
      let joined ← joinRuns? lt sort? room left run
      collapse? sort? room depth waiting joined
    else some ((waitingDepth, left) :: waiting, run)

/-- Join all runs: those that wait, the run that ends at `scanned`, and those behind it. -/
def joinAll? (sort? : List α → Option (List α)) (room length : Nat) :
    List (Nat × Run α) → Run α → Nat → List (Run α) → Option (Run α)
  | waiting, run, _, [] => do
    let (_, joined) ← collapse? lt sort? room 0 waiting run
    pure joined
  | waiting, run, scanned, next :: rest => do
    let depth :=
      joinDepth length (scanned - run.items.length) scanned (scanned + next.items.length)
    let (waiting, joined) ← collapse? lt sort? room depth waiting run
    joinAll? sort? room length ((depth, joined) :: waiting) next (scanned + next.items.length) rest

/-- The least length of stretches in order that count: half of a short list, 64 elements of a longer
one, and about the square root of the length of a long one. -/
def leastRun (length : Nat) : Nat :=
  if length ≤ 64 * 64 then min (length - length / 2) 64
  else
    let shift := (1 + length.log2) / 2
    (Nat.pow 2 shift + length / Nat.pow 2 shift) / 2

/-- A list sorted by its runs. Runs that are left to be sorted are sorted by `sort?`. -/
def runSort? (sort? : List α → Option (List α)) (eager : Bool) (room : Nat) (items : List α) :
    Option (List α) := do
  let length := items.length
  let runs ← runs? lt eager (leastRun length) length items
  match runs with
  | [] => some []
  | first :: rest =>
    let joined ← joinAll? lt sort? room length [] first first.items.length rest
    joined.sorted? sort?

/-! ## Partitions -/

/-- The one of three elements that stands between the other two. -/
def median (a b c : α) : α :=
  if lt a b = lt a c then if lt b c = lt a b then b else c else a

/-- An element near the middle of the order, chosen among some of the first `length`. -/
def sample (length : Nat) (items : List α) : Option α :=
  if length < 8 then items.head?
  else do
    let part := length / 8
    let a ← sample part items
    let b ← sample part (items.drop (4 * part))
    let c ← sample part (items.drop (7 * part))
    pure (median lt a b c)
termination_by length
decreasing_by all_goals omega

/-- A list sorted by partitions, at most `limit` times one in the other; then by its runs. No
element comes before `bound?`, so the elements equal to it are the first ones. -/
def partitionSort? (limit : Nat) (bound? : Option α) (items : List α) : Option (List α) :=
  match limit, items with
  | 0, items =>
    if items.length ≤ fewElements then smallSort? lt items
    else runSort? lt (fun run => some (insertionSort lt run)) true items.length items
  | _, [] => some []
  | limit + 1, first :: rest =>
    let items := first :: rest
    if items.length ≤ fewElements then smallSort? lt items
    else
      let pivot := (sample lt items.length items).getD first
      let below := items.filter fun item => lt item pivot
      if below.isEmpty || bound?.any fun bound => !lt bound pivot then do
        let above ← partitionSort? limit none (items.filter fun item => lt pivot item)
        pure ((items.filter fun item => !lt pivot item) ++ above)
      else do
        let behind ← partitionSort? limit (some pivot) (items.filter fun item => !lt item pivot)
        let before ← partitionSort? limit bound? below
        pure (before ++ behind)

/-! ## The whole list -/

/-- The greatest length of lists that are sorted by insertion. -/
def insertionLimit : Nat := 20

/-- How many elements can be sorted together in a list of `length`. -/
def sortingRoom (length : Nat) : Nat := max (length - length / 2) (min length 111111)

/-- The elements in order, equal ones in the order that they had; none if the comparison is seen to
contradict itself. -/
def sort? (items : List α) : Option (List α) :=
  let length := items.length
  if length ≤ insertionLimit then some (insertionSort lt items)
  else
    runSort? lt (fun run => partitionSort? lt (2 * run.length.log2) none run)
      (decide (length ≤ 2 * fewElements)) (sortingRoom length) items

end Sorting

end TextTemplate
