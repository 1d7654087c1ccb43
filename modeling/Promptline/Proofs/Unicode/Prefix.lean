import Promptline.Unicode.Cluster

set_option autoImplicit false

/-! # Clusters of the beginning of a text

Whether a text may be divided at a place depends only on what stands in front of it. So the clusters
of a text, up to one of them, are the clusters of the text up to there
(`clusters_flatten_take`), and a text never has fewer clusters for going on
(`clusterCount_le_append`), though characters put in behind it may join its last one: those come
first in what is put in behind (`joining_append_drop`). -/

namespace Promptline.Unicode

/-- A text begins with a cluster of its own. -/
theorem divide_start_fst (text : List Char) : (divide .start text).1 = [] := by
  cases text with
  | nil => rfl
  | cons c rest => rfl

/-- Dividing a text only up to one of its clusters. -/
theorem divide_take (ctx : Context) (text : List Char) (n : Nat) :
    divide ctx ((divide ctx text).1 ++ ((divide ctx text).2.take n).flatten) =
      ((divide ctx text).1, (divide ctx text).2.take n) := by
  induction text generalizing ctx n with
  | nil =>
      rw [divide, List.take_nil]
      rfl
  | cons c rest ih =>
      rw [divide]
      dsimp only
      split
      · next hbreak =>
          -- the cluster of `c` is the first one
          cases n with
          | zero => rfl
          | succ n =>
              rw [List.take_succ_cons, List.flatten_cons, List.nil_append, List.cons_append, divide,
                ih (ctx.next c) n]
              dsimp only
              rw [if_pos hbreak]
      · next hbreak =>
          rw [List.cons_append, divide, ih (ctx.next c) n]
          dsimp only
          rw [if_neg hbreak]

/-- **The first clusters of a text are the clusters of its beginning.** -/
theorem clusters_flatten_take (text : List Char) (n : Nat) :
    clusters ((clusters text).take n).flatten = (clusters text).take n := by
  have htake := divide_take .start text n
  rw [divide_start_fst, List.nil_append] at htake
  exact congrArg Prod.snd htake

theorem divide_length_le_append (ctx : Context) (text more : List Char) :
    (divide ctx text).2.length ≤ (divide ctx (text ++ more)).2.length := by
  induction text generalizing ctx with
  | nil => exact Nat.zero_le _
  | cons c rest ih =>
      have hrest := ih (ctx.next c)
      rw [List.cons_append, divide, divide]
      dsimp only
      split
      · exact Nat.succ_le_succ hrest
      · exact hrest

/-- **A text that goes on has no fewer clusters.** -/
theorem clusterCount_le_append (text more : List Char) :
    clusterCount text ≤ clusterCount (text ++ more) :=
  divide_length_le_append .start text more

/-! ## What joins -/

/-- The context behind a text. -/
def Context.behind (ctx : Context) (text : List Char) : Context :=
  text.foldl Context.next ctx

/-- The beginning of a text that belongs to the last cluster of the text in front of it. -/
def joining (front text : List Char) : List Char :=
  (divide (Context.start.behind front) text).1

/-- The clusters that begin in a text do so as its context has it. -/
theorem divide_append_drop (ctx : Context) (front text : List Char) :
    (divide ctx (front ++ text)).2.drop (divide ctx front).2.length =
      (divide (ctx.behind front) text).2 := by
  induction front generalizing ctx with
  | nil => rfl
  | cons c rest ih =>
      have hrest := ih (ctx.next c)
      rw [List.cons_append, divide, divide]
      dsimp only
      split
      · exact hrest
      · exact hrest

/-- **What does not join begins clusters of its own.** -/
theorem joining_append_drop (front text : List Char) :
    joining front text ++ ((clusters (front ++ text)).drop (clusterCount front)).flatten =
      text := by
  rw [clusters, clusterCount, clusters, divide_append_drop]
  exact divide_flatten _ text

/-- There is nothing to join in front of the first cluster. -/
theorem joining_nil (text : List Char) : joining [] text = [] :=
  divide_start_fst text

end Promptline.Unicode
