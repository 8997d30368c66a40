import OntologyCompiler.Proofs.Yaml.Illegible

/-!
# Values that are written and read

The reader gives back a value that was written if the value is legible, and of a common value only
then.

* `reread_legible`: a legible value reads back as it was.
* `reread_illegible`: a common value that is not legible does not read back at all.
* `reread_eq_ok_iff`: both at once.
-/

namespace OntologyCompiler.Yaml

/-- A value that is written, and read with the reader of the program. -/
def reread (v : Json) : Except Fault Json :=
  readText Medium.free (write v)

/-- Where the document is read, its value is that of its node. -/
theorem reread_eq {v : Json} (h : LegibleAt 0 v) : ∃ (d : Document) (limit : Nat),
    reread v = (Place.value (depthLimit + 1) ⟨d, depthLimit, nodeOf v⟩).run' limit := by
  obtain ⟨anchors, limit, hdocument⟩ := ofText?_write h
  refine ⟨⟨nodeOf v, anchors, limit⟩, limit, ?_⟩
  rw [reread, readText, hdocument]
  rfl

/-- **A legible value reads back unchanged.** -/
theorem reread_legible {v : Json} (hplain : v.Plain) (h : Legible v) : reread v = .ok v := by
  obtain ⟨d, limit, heq⟩ := reread_eq h.texts
  rw [heq, Place.value_nodeOf d hplain h.depth h.depth]
  rfl

/-- **A common value that is not legible** does not read back. -/
theorem reread_illegible {v : Json} (hplain : v.Plain) (hcommon : Common v)
    (hnot : ¬ Legible v) : reread v = .error .malformed := by
  by_cases htexts : LegibleAt 0 v
  · have hdeep : depthLimit < v.height := Nat.not_le.mp fun hdepth => hnot ⟨htexts, hdepth⟩
    obtain ⟨d, limit, heq⟩ := reread_eq htexts
    rw [heq, Place.value_tooDeep d hplain le_rfl hdeep]
    rfl
  · rw [reread, readText, ofText?_illegible hcommon htexts]
    rfl

/-- **What is read of a value that was written.** A legible value reads back, and a common one only
if it is legible; otherwise there is no value at all. -/
theorem reread_eq_ok_iff {v : Json} (hplain : v.Plain) :
    (Legible v → reread v = .ok v) ∧
      (Common v → (reread v = .ok v ↔ Legible v) ∧
        (¬ Legible v → reread v = .error .malformed)) := by
  refine ⟨reread_legible hplain, fun hcommon => ⟨⟨fun hok => ?_, reread_legible hplain⟩,
    reread_illegible hplain hcommon⟩⟩
  by_contra hnot
  rw [reread_illegible hplain hcommon hnot] at hok
  cases hok

/-- A bracket that closes is written as it is, and then not read. -/
theorem closing_brace_unread :
    (write (.str "\x7d") = "\x7d\n" ∧ reread (.str "\x7d") = .error .malformed) ∧
      reread (.obj [("a b", .arr [.str "- x", .num (.whole 1), .null]), ("k", .str "two\nlines")]) =
        .ok (.obj [("a b", .arr [.str "- x", .num (.whole 1), .null]), ("k", .str "two\nlines")]) := by
  refine ⟨⟨by decide, ?_⟩, ?_⟩
  · exact ((reread_eq_ok_iff (v := .str "\x7d") (by simp [Json.Plain])).2 (by decide)).2 (by decide)
  · exact (reread_eq_ok_iff (by simp [Json.Plain, Json.PlainItems, Json.PlainMembers,
      Ordered.keys, Number.InRange])).1 (by decide)

end OntologyCompiler.Yaml
