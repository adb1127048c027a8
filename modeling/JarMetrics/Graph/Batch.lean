/-!
# Batches of rows

Rows are sent to a graph store in batches of a size. Numbers are 64 bits wide and wrap around.
`chunkRows` first works out how many batches to make room for and gives up when that number is
negative; `cutFrom` gives up when a batch would end before it starts.
-/

namespace JarMetrics.Graph

/-- The index behind the last row of the batch that starts at an index. -/
def batchEnd (count size start : Int64) : Int64 :=
  if count < start + size then count else start + size

/-- The rows from an index on in batches of a size; only the last may be shorter. -/
def cutFrom {α : Type} (count size start : Int64) : List α → Option (List (List α))
  | [] => some []
  | row :: rest =>
      if batchEnd count size start ≤ start then none
      else
        let more := (batchEnd count size start - start).toInt.toNat - 1
        (cutFrom count size (start + size) (rest.drop more)).map ((row :: rest.take more) :: ·)
  termination_by rows => rows.length
  decreasing_by simp only [List.length_drop, List.length_cons]; omega

/-- The number of batches to make room for. -/
def capacity (count size : Int64) : Int64 := (count + size - 1) / size

/-- The rows in batches of a size; a size that is not positive stands for one batch of all. -/
def chunkRows {α : Type} (rows : List α) (size : Int64) : Option (List (List α)) :=
  if rows.isEmpty then some []
  else
    let count := Int64.ofNat rows.length
    let size := if size ≤ 0 then count else size
    if capacity count size < 0 then none else cutFrom count size 0 rows

end JarMetrics.Graph
