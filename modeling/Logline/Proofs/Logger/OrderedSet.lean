import Mathlib.Data.List.Nodup
import Logline.Proofs.Logger.Attachment

/-!
# Appenders as an ordered set

An ordered set is a list in which nothing stands twice. What is inserted comes last unless it is there
already, and what is erased leaves the others in their order. Whatever is asked of a logger's appenders is
asked of such a set, and giving a logger appenders all at once is giving them one by one.
-/

namespace Logline

structure OrderedSet (α : Type) where
  toList : List α
  nodup : toList.Nodup

namespace OrderedSet

variable {α : Type} [DecidableEq α]

def empty : OrderedSet α where
  toList := []
  nodup := List.nodup_nil

def insert (s : OrderedSet α) (a : α) : OrderedSet α :=
  if h : a ∈ s.toList then s
  else
    { toList := s.toList ++ [a]
      nodup := List.nodup_append.mpr ⟨s.nodup, List.nodup_singleton a, fun b hb c hc => by
        rw [List.mem_singleton.mp hc]
        exact ne_of_mem_of_not_mem hb h⟩ }

def erase (s : OrderedSet α) (a : α) : OrderedSet α where
  toList := s.toList.erase a
  nodup := s.nodup.erase a

def insertAll (s : OrderedSet α) (as : List α) : OrderedSet α :=
  as.foldl insert s

theorem insert_of_mem {s : OrderedSet α} {a : α} (h : a ∈ s.toList) : s.insert a = s :=
  dif_pos h

theorem toList_insert_of_notMem {s : OrderedSet α} {a : α} (h : a ∉ s.toList) :
    (s.insert a).toList = s.toList ++ [a] := by
  rw [insert, dif_neg h]

/-- Of what is inserted the first places count, and only of what is new. -/
theorem toList_insertAll (s : OrderedSet α) (as : List α) :
    (s.insertAll as).toList = s.toList ++ (as.filter (· ∉ s.toList)).eraseDups := by
  induction as generalizing s with
  | nil => simp [insertAll]
  | cons a as ih =>
    have hstep : s.insertAll (a :: as) = (s.insert a).insertAll as := rfl
    rw [hstep, ih]
    by_cases ha : a ∈ s.toList
    · rw [insert_of_mem ha, List.filter_cons_of_neg (by simpa using ha)]
    · have hrest : as.filter (· ∉ (s.insert a).toList) = (as.filter (· ∉ s.toList)).filter fun b => !b == a := by
        rw [List.filter_filter]
        refine List.filter_congr fun b _ => ?_
        rw [toList_insert_of_notMem ha, Bool.eq_iff_iff]
        simp [not_or, and_comm]
      rw [hrest, toList_insert_of_notMem ha, List.filter_cons_of_pos (by simpa using ha), List.eraseDups_cons,
        List.append_assoc]
      rfl

theorem toList_insertAll_empty (as : List α) : (empty.insertAll as).toList = as.eraseDups := by
  rw [toList_insertAll]
  simp [empty]

end OrderedSet

namespace Logger

/-! ## What is asked of a logger's appenders -/

inductive Edit
  | add (a : AppenderId)
  | remove (a : AppenderId)
  | clear
  | set (as : List AppenderId)

def Edit.apply : Edit → Logger → Logger
  | add a, l => l.add a
  | remove a, l => l.remove a
  | clear, l => l.clear
  | set as, l => l.set as

def Edit.perform : Edit → OrderedSet AppenderId → OrderedSet AppenderId
  | add a, s => s.insert a
  | remove a, s => s.erase a
  | clear, _ => .empty
  | set as, _ => OrderedSet.empty.insertAll as

def edited (es : List Edit) (s : OrderedSet AppenderId) : OrderedSet AppenderId :=
  es.foldl (fun s e => e.perform s) s

theorem edited_append (es fs : List Edit) (s : OrderedSet AppenderId) :
    edited (es ++ fs) s = edited fs (edited es s) :=
  List.foldl_append

variable {l : Logger} {s : OrderedSet AppenderId}

theorem appenders_add (h : l.appenders = s.toList) (a : AppenderId) :
    (l.add a).appenders = (s.insert a).toList := by
  unfold add
  by_cases ha : a ∈ s.toList
  · rw [OrderedSet.insert_of_mem ha, if_pos (h ▸ ha), h]
  · rw [OrderedSet.toList_insert_of_notMem ha, if_neg (h ▸ ha), h]

theorem appenders_remove (h : l.appenders = s.toList) (a : AppenderId) :
    (l.remove a).appenders = (s.erase a).toList := by
  have hfilter : (s.erase a).toList = s.toList.filter (· != a) := s.nodup.erase_eq_filter a
  rw [hfilter, ← h]
  exact List.filter_congr fun b _ => by simp [bne, beq_eq_decide]

theorem appenders_set (l : Logger) (as : List AppenderId) :
    (l.set as).appenders = (OrderedSet.empty.insertAll as).toList :=
  (OrderedSet.toList_insertAll_empty as).symm

theorem appenders_edit (h : l.appenders = s.toList) (e : Edit) : (e.apply l).appenders = (e.perform s).toList := by
  cases e with
  | add a => exact appenders_add h a
  | remove a => exact appenders_remove h a
  | clear => rfl
  | set as => exact l.appenders_set as

/-! ## All at once and one by one -/

theorem foldl_add (as : List AppenderId) (h : l.appenders = s.toList) :
    as.foldl add l = { l with appenders := (s.insertAll as).toList } := by
  induction as generalizing l s with
  | nil => exact congrArg (fun appenders => { l with appenders }) h
  | cons a as ih =>
    have hadd : l.add a = { l with appenders := (l.add a).appenders } := by
      unfold add
      split <;> rfl
    rw [List.foldl_cons, ih (appenders_add h a), hadd]
    rfl

theorem set_eq_foldl_add (l : Logger) (as : List AppenderId) : l.set as = as.foldl add l.clear := by
  rw [foldl_add (s := .empty) as rfl, ← l.appenders_set as]
  rfl

structure Builder where
  name : String
  level : Level := .debug
  appenders : List AppenderId := []

namespace Builder

inductive Step
  | minLevel (level : Level)
  | appender (a : AppenderId)

def take (b : Builder) : Step → Builder
  | .minLevel level => { b with level }
  | .appender a => { b with appenders := b.appenders ++ [a] }

def build (b : Builder) : Logger :=
  Logger.build b.name b.level b.appenders

def Step.edits : Step → List Edit
  | minLevel _ => []
  | appender a => [.add a]

theorem edited_steps (steps : List Step) (b : Builder) :
    edited (steps.flatMap Step.edits) (OrderedSet.empty.insertAll b.appenders) =
      OrderedSet.empty.insertAll (steps.foldl take b).appenders := by
  induction steps generalizing b with
  | nil => rfl
  | cons step steps ih =>
    rw [List.flatMap_cons, edited_append, List.foldl_cons, ← ih]
    congr 1
    cases step with
    | minLevel level => rfl
    | appender a =>
      show (OrderedSet.empty.insertAll b.appenders).insert a = (b.appenders ++ [a]).foldl OrderedSet.insert .empty
      rw [List.foldl_append]
      rfl

theorem appenders_build (steps : List Step) (name : String) :
    (steps.foldl take { name }).build.appenders = (edited (steps.flatMap Step.edits) .empty).toList := by
  have h := edited_steps steps { name }
  rw [show OrderedSet.empty.insertAll ({ name } : Builder).appenders = .empty from rfl] at h
  rw [h]
  exact appenders_set _ _

end Builder

end Logger

end Logline
