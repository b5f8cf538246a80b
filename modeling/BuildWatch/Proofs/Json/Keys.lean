import BuildWatch.Proofs.Json.Grammar
namespace BuildWatch.Json

/-- Values in which the keys of every object differ. -/
inductive Keyed : Json → Prop where
  | null : Keyed .null
  | bool (value : Bool) : Keyed (.bool value)
  | number (value : Number) : Keyed (.number value)
  | text (value : String) : Keyed (.text value)
  | array (items : List Json) (inside : ∀ item ∈ items, Keyed item) : Keyed (.array items)
  | object (fields : List (String × Json)) (distinct : (fields.map Prod.fst).Nodup)
      (inside : ∀ field ∈ fields, Keyed field.2) : Keyed (.object fields)

/-- Besides the fields that an object had, it has the one that was written into it. -/
theorem mem_putField (key : String) (value : Json) (fields : List (String × Json))
    (field : String × Json) (member : field ∈ putField key value fields) :
    field = (key, value) ∨ field ∈ fields := by
  induction fields with
  | nil => exact Or.inl (List.mem_singleton.mp member)
  | cons first rest inductionHypothesis =>
    obtain ⟨other, old⟩ := first
    by_cases same : other = key
    · rw [putField, if_pos same] at member
      exact (List.mem_cons.mp member).imp_right (List.mem_cons_of_mem _)
    · rw [putField, if_neg same] at member
      rcases List.mem_cons.mp member with rfl | later
      · exact Or.inr List.mem_cons_self
      · exact (inductionHypothesis later).imp_right (List.mem_cons_of_mem _)

/-- A written key stands once in the object. -/
theorem putField_distinct (key : String) (value : Json) (fields : List (String × Json))
    (distinct : (fields.map Prod.fst).Nodup) :
    ((putField key value fields).map Prod.fst).Nodup := by
  induction fields with
  | nil => simp [putField]
  | cons first rest inductionHypothesis =>
    obtain ⟨other, old⟩ := first
    obtain ⟨fresh, later⟩ := List.nodup_cons.mp distinct
    by_cases same : other = key
    · subst same
      rw [putField, if_pos rfl]
      exact distinct
    · rw [putField, if_neg same, List.map_cons]
      refine List.nodup_cons.mpr ⟨?_, inductionHypothesis later⟩
      intro member
      obtain ⟨field, inside, named⟩ := List.mem_map.mp member
      rcases mem_putField key value rest field inside with rfl | old
      · exact same named.symm
      · exact fresh (List.mem_map.mpr ⟨field, old, named⟩)

/-- Fields are written one after the other into an object with different keys. -/
theorem enter_keyed (members : List Member) (held : List (String × Json))
    (values : ∀ member ∈ members, Keyed member.value) (keyed : Keyed (.object held)) :
    Keyed (.object (members.foldl Member.enter held)) := by
  induction members generalizing held with
  | nil => exact keyed
  | cons member rest inductionHypothesis =>
    obtain ⟨value, others⟩ := List.forall_mem_cons.mp values
    refine inductionHypothesis (member.enter held) others ?_
    cases keyed with
    | object _ distinct inside =>
      refine Keyed.object _ (putField_distinct _ _ _ distinct) fun field written => ?_
      rcases mem_putField _ _ _ field written with rfl | old
      · exact value
      · exact inside field old

/-- The keys of every object that the grammar spells differ, since a key that is written
again takes the place of the first one. -/
theorem Spells.keyed {depth : Nat} {text : List Char} {value : Json}
    (spells : Spells depth text value) : Keyed value := by
  induction spells with
  | null => exact Keyed.null
  | bool depth value => exact Keyed.bool value
  | number depth literal parts number => exact Keyed.number number
  | text depth body value => exact Keyed.text _
  | spaced depth left text right value before behind inside inductionHypothesis =>
    exact inductionHypothesis
  | emptyArray => exact Keyed.array [] (by simp)
  | array depth first rest inside inductionHypothesis =>
    exact Keyed.array _ (List.forall_mem_map.mpr inductionHypothesis)
  | emptyObject => exact Keyed.object [] List.nodup_nil (by simp)
  | object depth first rest keys values keysKeyed valuesKeyed =>
    exact enter_keyed (first :: rest) [] valuesKeyed (Keyed.object [] List.nodup_nil (by simp))

end BuildWatch.Json
