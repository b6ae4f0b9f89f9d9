import AiLabOs.Base.Text

/-!
# Workspaces

## Main definitions

* `WorkspaceKey`: the workspace a request names
* `Workspace`: the three components that own a stored row
* `canonicalWorkspace`, `workspaceIdentity`: the owner a key stands for
-/

/-- `WorkspaceKey`, as far as the stores read it. -/
structure WorkspaceKey where
  tenantId : String := ""
  workspaceId : String := ""
  nameSpace : String := "default"
  traceId : String := ""
deriving DecidableEq, Repr

/-- `(tenant_id, workspace_id, namespace)`. -/
@[ext] structure Workspace where
  tenantId : String
  workspaceId : String
  nameSpace : String
deriving DecidableEq, Repr

/-- The workspace of requests and rows that name none. -/
def Workspace.default : Workspace := ⟨"default", "default", "default"⟩

/-- `value or "default"`. -/
def orDefault (value : String) : String := if value = "" then "default" else value

/-- `canonical_workspace`: empty components are those of the default workspace. -/
def canonicalWorkspace (key : WorkspaceKey) : Workspace :=
  ⟨orDefault key.tenantId, orDefault key.workspaceId, orDefault key.nameSpace⟩

/-- `workspace_identity`: components are stripped first. -/
def workspaceIdentity (key : WorkspaceKey) : Workspace :=
  ⟨orDefault (Text.strip key.tenantId), orDefault (Text.strip key.workspaceId),
    orDefault (Text.strip key.nameSpace)⟩
