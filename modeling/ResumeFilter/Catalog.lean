/-!
# The catalog of filterable fields

A filter names its fields from a closed vocabulary. The catalog says, for each of them, which
column stores its value and which join, if any, has to be declared before a query may refer to that
column. All of it is fixed data; which joins a particular query has declared is the lowering's
business.
-/

namespace ResumeFilter

/-! ## Tables and columns -/

/-- A relation that a query can draw from. -/
inductive Table
  | resumes
  | resumeSkills
  | skills
  | education
  | workExperience
deriving DecidableEq

namespace Table

/-- The relation that every query selects from. -/
def base : Table := .resumes

/-- The name of the relation in the database. -/
def name : Table → String
  | .resumes => "resumes"
  | .resumeSkills => "resume_skills"
  | .skills => "skills"
  | .education => "education"
  | .workExperience => "work_experience"

end Table

/-- A column of one of the relations. -/
structure Column where
  table : Table
  name : String
deriving DecidableEq

/-- The column's name with its table in front, as in `skills.name`. -/
def Column.qualifiedName (column : Column) : String :=
  column.table.name ++ "." ++ column.name

/-! ## Joins -/

/-- One hop of a join: `table` is brought in where `left` equals `right`. -/
structure JoinStep where
  table : Table
  left : Column
  right : Column
deriving DecidableEq

/-- A named way from the base relation to another one. -/
inductive Join
  | skills
  | education
  | workExperience
deriving DecidableEq

namespace Join

/-- Every join of the catalog. -/
def all : List Join := [.skills, .education, .workExperience]

/-- The name by which a join is declared. -/
def name : Join → String
  | .skills => "skills"
  | .education => "education"
  | .workExperience => "work_experience"

/-- The join of a given name. -/
def ofName? (name : String) : Option Join :=
  all.find? fun join => join.name == name

/-- The hops of a join, in the order in which they have to be taken. -/
def steps : Join → List JoinStep
  | .skills =>
    [⟨.resumeSkills, ⟨.resumes, "id"⟩, ⟨.resumeSkills, "resume_id"⟩⟩,
     ⟨.skills, ⟨.resumeSkills, "skill_id"⟩, ⟨.skills, "id"⟩⟩]
  | .education => [⟨.education, ⟨.resumes, "id"⟩, ⟨.education, "resume_id"⟩⟩]
  | .workExperience => [⟨.workExperience, ⟨.resumes, "id"⟩, ⟨.workExperience, "resume_id"⟩⟩]

end Join

/-! ## Fields -/

/-- A field that a filter may name. -/
inductive Field
  | yoe
  | location
  | salary
  | experience
  | education
  | skills
deriving DecidableEq

namespace Field

/-- Every field of the catalog. -/
def all : List Field := [.yoe, .location, .salary, .experience, .education, .skills]

/-- The spelling of a field in a filter. -/
def name : Field → String
  | .yoe => "YOE"
  | .location => "LOCATION"
  | .salary => "SALARY"
  | .experience => "EXPERIENCE"
  | .education => "EDUCATION"
  | .skills => "SKILLS"

/-- The field of a given spelling; case matters. -/
def ofName? (name : String) : Option Field :=
  all.find? fun field => field.name == name

/-- Where the value of a field is stored. -/
def column : Field → Column
  | .yoe => ⟨.resumes, "years_of_experience"⟩
  | .location => ⟨.resumes, "location"⟩
  | .salary => ⟨.resumes, "current_salary"⟩
  | .experience => ⟨.resumes, "experience_level"⟩
  | .education => ⟨.education, "degree"⟩
  | .skills => ⟨.skills, "name"⟩

/-- The join to declare before the field's column is referred to.

`EXPERIENCE` is read from the base relation and brings in the work experience all the same. -/
def join? : Field → Option Join
  | .skills => some .skills
  | .education => some .education
  | .experience => some .workExperience
  | .yoe | .location | .salary => none

end Field

end ResumeFilter
