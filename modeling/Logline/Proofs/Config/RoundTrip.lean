import Logline.Config.Printer
import Logline.Config.Reader
import Logline.Proofs.Json.ReadBack

/-!
# Configurations that are printed and read

A printed configuration holds an entry for every field that is not absent, and reads as the configuration it
was printed from. Whether it is accepted is then a matter of the configuration alone.
-/

namespace Logline

open Json

theorem Json.Fills.single {δ α : Type} {shape : Shape δ α} {draft draft' : δ} {key : String} {text : List Char}
    {field : Field δ} (hfield : shape.field? key = some field) (hset : field.isSet draft = false)
    (hread : ReadsBack (field.kind draft).read text draft') : Fills shape draft [(key, text)] draft' :=
  .cons hfield hset hread (.nil draft')

/-- An absent value has no entry and leaves the draft as it is. -/
theorem Json.Fills.optional {δ α β : Type} {shape : Shape δ α} {key : String} {print : β → List Char}
    (put : Option β → δ) (h : ∀ x, Fills shape (put none) [(key, print x)] (put (some x))) (value : Option β) :
    Fills shape (put none) (optionalEntry key (value.map print)) (put value) := by
  cases value with
  | none => exact .nil _
  | some x => exact h x

theorem Level.readsBack_kind (l : Level) : ReadsBack Level.kind.read (stringText l.name) l :=
  FromText.readsBack_variant (by cases l <;> decide)

theorem FileMode.readsBack_kind (m : FileMode) : ReadsBack FileMode.kind.read (stringText m.name) m :=
  FromText.readsBack_variant (by cases m <;> decide)

namespace Config

theorem AppenderKind.readsBack_kind (k : AppenderKind) : ReadsBack AppenderKind.kind.read (stringText k.name) k :=
  FromText.readsBack_variant (by cases k <;> decide)

theorem readsBack_text (s : String) : ReadsBack text.read (stringText s) s :=
  FromText.readsBack_string _ s

/-! ## One record after the other -/

theorem AppenderPlan.readsBack (a : AppenderPlan) (depth : Nat) :
    ReadsBack (FromText.record appenderShape) (objectText depth a.entries) a := by
  have hkind : Fills appenderShape {} [("type", stringText a.kind.name)] { kind := some a.kind } :=
    .single rfl rfl (a.kind.readsBack_kind.map _)
  have hlevel : Fills appenderShape { kind := some a.kind }
      (optionalEntry "level" (a.level.map fun l => stringText l.name))
      { kind := some a.kind, level := a.level.map some } :=
    .optional (fun v => ({ kind := some a.kind, level := v.map some } : AppenderDraft))
      (fun l => .single rfl rfl ((FromText.readsBack_optional l.readsBack_kind).map _)) a.level
  have hpattern : Fills appenderShape { kind := some a.kind, level := a.level.map some }
      (optionalEntry "formatter" (a.pattern.map stringText))
      { kind := some a.kind, level := a.level.map some, pattern := a.pattern.map some } :=
    .optional (fun v => ({ kind := some a.kind, level := a.level.map some, pattern := v.map some } : AppenderDraft))
      (fun p => .single rfl rfl ((FromText.readsBack_optional (readsBack_text p)).map _)) a.pattern
  have hfile : Fills appenderShape { kind := some a.kind, level := a.level.map some, pattern := a.pattern.map some }
      (optionalEntry "file" (a.file.map stringText))
      { kind := some a.kind, level := a.level.map some, pattern := a.pattern.map some, file := a.file.map some } :=
    .optional
      (fun v => (
        { kind := some a.kind, level := a.level.map some, pattern := a.pattern.map some
          file := v.map some } : AppenderDraft))
      (fun p => .single rfl rfl ((FromText.readsBack_optional (FromText.readsBack_string _ p)).map _)) a.file
  have hmode : Fills appenderShape
      { kind := some a.kind, level := a.level.map some, pattern := a.pattern.map some, file := a.file.map some }
      [("mode", stringText a.mode.name)]
      { kind := some a.kind, level := a.level.map some, pattern := a.pattern.map some, file := a.file.map some
        mode := some a.mode } :=
    .single rfl rfl (a.mode.readsBack_kind.map _)
  refine FromText.readsBack_record ((((hkind.append hlevel).append hpattern).append hfile).append hmode) ?_ depth
  obtain ⟨kind, level, pattern, file, mode⟩ := a
  cases level <;> cases pattern <;> cases file <;> rfl

theorem LoggerPlan.readsBack (l : LoggerPlan) (depth : Nat) :
    ReadsBack (FromText.record loggerShape) (objectText depth l.entries) l := by
  have happenders : List.Forall₂ (ReadsBack (FromText.record appenderShape))
      (l.appenders.map fun a => objectText 4 a.entries) l.appenders := by
    rw [List.forall₂_map_left_iff, List.forall₂_same]
    exact fun a _ => a.readsBack 4
  have hname : Fills loggerShape {} [("name", stringText l.name), ("level", stringText l.level.name)]
      { name := some l.name, level := some l.level } :=
    .cons rfl rfl ((readsBack_text l.name).map _) (.single rfl rfl (l.level.readsBack_kind.map _))
  have hpattern : Fills loggerShape { name := some l.name, level := some l.level }
      (optionalEntry "formatter" (l.pattern.map stringText))
      { name := some l.name, level := some l.level, pattern := l.pattern.map some } :=
    .optional (fun v => ({ name := some l.name, level := some l.level, pattern := v.map some } : LoggerDraft))
      (fun p => .single rfl rfl ((FromText.readsBack_optional (readsBack_text p)).map _)) l.pattern
  have hlist : Fills loggerShape { name := some l.name, level := some l.level, pattern := l.pattern.map some }
      [("appenders", listText 3 (l.appenders.map fun a => objectText 4 a.entries))]
      { name := some l.name, level := some l.level, pattern := l.pattern.map some, appenders := some l.appenders } :=
    .single rfl rfl ((FromText.readsBack_sequence happenders 3).map _)
  refine FromText.readsBack_record ((hname.append hpattern).append hlist) ?_ depth
  obtain ⟨name, level, pattern, appenders⟩ := l
  cases pattern <;> rfl

/-! ## The whole document -/

theorem readsBack_document (c : Config) : ReadsBack kind.read c.document c := by
  have hloggers : List.Forall₂ (ReadsBack (FromText.record loggerShape))
      (c.loggers.map fun l => objectText 2 l.entries) c.loggers := by
    rw [List.forall₂_map_left_iff, List.forall₂_same]
    exact fun l _ => l.readsBack 2
  have hlist : Fills shape {} [("loggers", listText 1 (c.loggers.map fun l => objectText 2 l.entries))]
      ⟨some c.loggers⟩ :=
    .single rfl rfl ((FromText.readsBack_sequence hloggers 1).map _)
  exact FromText.readsBack_record hlist rfl 0

theorem parse_print (c : Config) : parse c.print = .ok c := by
  have htakes : kind.read c.document = .ok (c, []) := by
    have h := c.readsBack_document.takes [] [] blank_nil
    rwa [List.nil_append, List.append_nil] at h
  rw [parse, Reader.run, print, String.toList_ofList]
  show (kind.read c.document >>= fun p => _) = _
  rw [htakes]
  rfl

/-- Every configuration has a printed text, whatever characters its names, patterns and paths are made of and
whichever fields are absent; and the text reads as the same configuration just if that is a sound one. -/
theorem read_print_eq_ok_iff (c : Config) : read c.print = .ok c ↔ c.validate = .ok () := by
  rw [read, parse_print]
  cases hv : c.validate with
  | ok u => simp only [hv]
  | error e => simp only [hv, reduceCtorEq]

end Config

end Logline
