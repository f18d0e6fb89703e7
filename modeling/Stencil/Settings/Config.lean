import Stencil.Settings.Setting

/-!
# The settings

The settings of a project: who acts, what identifiers are derived from, named values of its own, and
the resources that it uses. Every setting is empty until it is set, so that a declared but unset
setting can be told from a misspelled one.

The settings of a group are listed once to be read and written, and once more to be visited: the
visit goes through their texts in the order in which they are listed for it.
-/

namespace Stencil.Settings

open Json (Shape Value)

/-- Where files are uploaded to. -/
structure Storage where
  location : String := ""
  resourceGroup : String := ""
  accountName : String := ""
  accountId : String := ""
  containerName : String := ""
  containerId : String := ""
  filePrefix : String := ""
  blobEndpoint : String := ""
  deriving DecidableEq

/-- The settings of `Storage`, in their order. -/
def Storage.settings : List (String × Setting Storage) :=
  [("location", .text ⟨(·.location), fun x a => { a with location := x }⟩),
    ("resourceGroup", .text ⟨(·.resourceGroup), fun x a => { a with resourceGroup := x }⟩),
    ("accountName", .text ⟨(·.accountName), fun x a => { a with accountName := x }⟩),
    ("accountId", .text ⟨(·.accountId), fun x a => { a with accountId := x }⟩),
    ("containerName", .text ⟨(·.containerName), fun x a => { a with containerName := x }⟩),
    ("containerId", .text ⟨(·.containerId), fun x a => { a with containerId := x }⟩),
    ("prefix", .text ⟨(·.filePrefix), fun x a => { a with filePrefix := x }⟩),
    ("blobEndpoint", .text ⟨(·.blobEndpoint), fun x a => { a with blobEndpoint := x }⟩)]

/-- Visits every text of `Storage`. -/
def Storage.mapTexts {m : Type → Type} [Monad m] (visit : String → m String) (a : Storage) :
    m Storage := do
  return { a with
    location := ← visit a.location
    resourceGroup := ← visit a.resourceGroup
    accountName := ← visit a.accountName
    accountId := ← visit a.accountId
    containerName := ← visit a.containerName
    containerId := ← visit a.containerId
    filePrefix := ← visit a.filePrefix
    blobEndpoint := ← visit a.blobEndpoint }

/-- The identity that a machine runs under. -/
structure Identity where
  location : String := ""
  resourceGroup : String := ""
  identityName : String := ""
  identityId : String := ""
  deriving DecidableEq

/-- The settings of `Identity`, in their order. -/
def Identity.settings : List (String × Setting Identity) :=
  [("location", .text ⟨(·.location), fun x a => { a with location := x }⟩),
    ("resourceGroup", .text ⟨(·.resourceGroup), fun x a => { a with resourceGroup := x }⟩),
    ("identityName", .text ⟨(·.identityName), fun x a => { a with identityName := x }⟩),
    ("identityId", .text ⟨(·.identityId), fun x a => { a with identityId := x }⟩)]

/-- Visits every text of `Identity`. -/
def Identity.mapTexts {m : Type → Type} [Monad m] (visit : String → m String) (a : Identity) :
    m Identity := do
  return { a with
    location := ← visit a.location
    resourceGroup := ← visit a.resourceGroup
    identityName := ← visit a.identityName
    identityId := ← visit a.identityId }

/-- The machine that commands run on. -/
structure Machine where
  resourceGroup : String := ""
  machineName : String := ""
  machineId : String := ""
  deriving DecidableEq

/-- The settings of `Machine`, in their order. -/
def Machine.settings : List (String × Setting Machine) :=
  [("resourceGroup", .text ⟨(·.resourceGroup), fun x a => { a with resourceGroup := x }⟩),
    ("machineName", .text ⟨(·.machineName), fun x a => { a with machineName := x }⟩),
    ("machineId", .text ⟨(·.machineId), fun x a => { a with machineId := x }⟩)]

/-- Visits every text of `Machine`. -/
def Machine.mapTexts {m : Type → Type} [Monad m] (visit : String → m String) (a : Machine) :
    m Machine := do
  return { a with
    resourceGroup := ← visit a.resourceGroup
    machineName := ← visit a.machineName
    machineId := ← visit a.machineId }

/-- The image that is built. -/
structure Image where
  location : String := ""
  resourceGroup : String := ""
  imageName : String := ""
  imageId : String := ""
  skipSetup : Bool := false
  skipCreate : Bool := false
  deriving DecidableEq

/-- The settings of `Image`, in their order. -/
def Image.settings : List (String × Setting Image) :=
  [("location", .text ⟨(·.location), fun x a => { a with location := x }⟩),
    ("resourceGroup", .text ⟨(·.resourceGroup), fun x a => { a with resourceGroup := x }⟩),
    ("imageName", .text ⟨(·.imageName), fun x a => { a with imageName := x }⟩),
    ("imageId", .text ⟨(·.imageId), fun x a => { a with imageId := x }⟩),
    ("skipSetup", .flag ⟨(·.skipSetup), fun x a => { a with skipSetup := x }⟩),
    ("skipCreate", .flag ⟨(·.skipCreate), fun x a => { a with skipCreate := x }⟩)]

/-- Visits every text of `Image`. -/
def Image.mapTexts {m : Type → Type} [Monad m] (visit : String → m String) (a : Image) :
    m Image := do
  return { a with
    location := ← visit a.location
    resourceGroup := ← visit a.resourceGroup
    imageName := ← visit a.imageName
    imageId := ← visit a.imageId }

/-- The gallery that images are published in. -/
structure Gallery where
  location : String := ""
  resourceGroup : String := ""
  galleryName : String := ""
  galleryId : String := ""
  galleryImageName : String := ""
  galleryImageId : String := ""
  publisher : String := ""
  offer : String := ""
  sku : String := ""
  osState : String := ""
  osType : String := ""
  hyperVGeneration : String := ""
  replicationRegions : List String := []
  excludeFromLatest : Bool := false
  storageAccountType : String := ""
  skipSetup : Bool := false
  skipCreate : Bool := false
  deriving DecidableEq

/-- The settings of `Gallery`, in their order. -/
def Gallery.settings : List (String × Setting Gallery) :=
  [("location", .text ⟨(·.location), fun x a => { a with location := x }⟩),
    ("resourceGroup", .text ⟨(·.resourceGroup), fun x a => { a with resourceGroup := x }⟩),
    ("galleryName", .text ⟨(·.galleryName), fun x a => { a with galleryName := x }⟩),
    ("galleryId", .text ⟨(·.galleryId), fun x a => { a with galleryId := x }⟩),
    ("galleryImageName", .text ⟨(·.galleryImageName), fun x a => { a with galleryImageName := x }⟩),
    ("galleryImageId", .text ⟨(·.galleryImageId), fun x a => { a with galleryImageId := x }⟩),
    ("publisher", .text ⟨(·.publisher), fun x a => { a with publisher := x }⟩),
    ("offer", .text ⟨(·.offer), fun x a => { a with offer := x }⟩),
    ("sku", .text ⟨(·.sku), fun x a => { a with sku := x }⟩),
    ("osState", .text ⟨(·.osState), fun x a => { a with osState := x }⟩),
    ("osType", .text ⟨(·.osType), fun x a => { a with osType := x }⟩),
    ("hyperVGeneration", .text ⟨(·.hyperVGeneration), fun x a => { a with hyperVGeneration := x }⟩),
    ("replicationRegions",
      .texts ⟨(·.replicationRegions), fun x a => { a with replicationRegions := x }⟩),
    ("excludeFromLatest",
      .flag ⟨(·.excludeFromLatest), fun x a => { a with excludeFromLatest := x }⟩),
    ("storageAccountType",
      .text ⟨(·.storageAccountType), fun x a => { a with storageAccountType := x }⟩),
    ("skipSetup", .flag ⟨(·.skipSetup), fun x a => { a with skipSetup := x }⟩),
    ("skipCreate", .flag ⟨(·.skipCreate), fun x a => { a with skipCreate := x }⟩)]

/-- Visits every text of `Gallery`. -/
def Gallery.mapTexts {m : Type → Type} [Monad m] (visit : String → m String) (a : Gallery) :
    m Gallery := do
  return { a with
    location := ← visit a.location
    resourceGroup := ← visit a.resourceGroup
    galleryName := ← visit a.galleryName
    galleryId := ← visit a.galleryId
    galleryImageName := ← visit a.galleryImageName
    galleryImageId := ← visit a.galleryImageId
    publisher := ← visit a.publisher
    offer := ← visit a.offer
    sku := ← visit a.sku
    osState := ← visit a.osState
    osType := ← visit a.osType
    hyperVGeneration := ← visit a.hyperVGeneration
    replicationRegions := ← Setting.mapList visit a.replicationRegions
    storageAccountType := ← visit a.storageAccountType }

/-- The builder that makes images. -/
structure Builder where
  location : String := ""
  resourceGroup : String := ""
  builderName : String := ""
  builderId : String := ""
  deriving DecidableEq

/-- The settings of `Builder`, in their order. -/
def Builder.settings : List (String × Setting Builder) :=
  [("location", .text ⟨(·.location), fun x a => { a with location := x }⟩),
    ("resourceGroup", .text ⟨(·.resourceGroup), fun x a => { a with resourceGroup := x }⟩),
    ("builderName", .text ⟨(·.builderName), fun x a => { a with builderName := x }⟩),
    ("builderId", .text ⟨(·.builderId), fun x a => { a with builderId := x }⟩)]

/-- Visits every text of `Builder`. -/
def Builder.mapTexts {m : Type → Type} [Monad m] (visit : String → m String) (a : Builder) :
    m Builder := do
  return { a with
    location := ← visit a.location
    resourceGroup := ← visit a.resourceGroup
    builderName := ← visit a.builderName
    builderId := ← visit a.builderId }

/-- All settings. -/
structure Config where
  id : String := ""
  tenantId : String := ""
  clientId : String := ""
  subscriptionId : String := ""
  hashNS : String := ""
  values : Table String := []
  storage : Storage := {}
  identity : Identity := {}
  machine : Machine := {}
  image : Image := {}
  gallery : Gallery := {}
  builder : Builder := {}
  deriving DecidableEq

namespace Config

/-- The place of the settings of `Storage`. -/
def storagePlace : Lens Config Storage :=
  ⟨(·.storage), fun x a => { a with storage := x }⟩

/-- The place of the settings of `Identity`. -/
def identityPlace : Lens Config Identity :=
  ⟨(·.identity), fun x a => { a with identity := x }⟩

/-- The place of the settings of `Machine`. -/
def machinePlace : Lens Config Machine :=
  ⟨(·.machine), fun x a => { a with machine := x }⟩

/-- The place of the settings of `Image`. -/
def imagePlace : Lens Config Image :=
  ⟨(·.image), fun x a => { a with image := x }⟩

/-- The place of the settings of `Gallery`. -/
def galleryPlace : Lens Config Gallery :=
  ⟨(·.gallery), fun x a => { a with gallery := x }⟩

/-- The place of the settings of `Builder`. -/
def builderPlace : Lens Config Builder :=
  ⟨(·.builder), fun x a => { a with builder := x }⟩

/-- The settings of a group, in their place. -/
def within {α : Type} (place : Lens Config α) (settings : List (String × Setting α)) :
    List (String × Setting Config) :=
  settings.map fun e => (e.1, e.2.inside place)

/-- The title of all settings together. -/
def title : String := "Config"

/-- All settings, in their order. -/
def parts : List (String × Part Config) :=
  [("id", .single (.text ⟨(·.id), fun x a => { a with id := x }⟩)),
    ("tenantId", .single (.text ⟨(·.tenantId), fun x a => { a with tenantId := x }⟩)),
    ("clientId", .single (.text ⟨(·.clientId), fun x a => { a with clientId := x }⟩)),
    ("subscriptionId",
      .single (.text ⟨(·.subscriptionId), fun x a => { a with subscriptionId := x }⟩)),
    ("hashNS", .single (.text ⟨(·.hashNS), fun x a => { a with hashNS := x }⟩)),
    ("variables", .single (.named ⟨(·.values), fun x a => { a with values := x }⟩)),
    ("storage", .group "StorageConfig" (within storagePlace Storage.settings)),
    ("identity", .group "IdentityConfig" (within identityPlace Identity.settings)),
    ("machine", .group "MachineConfig" (within machinePlace Machine.settings)),
    ("image", .group "ImageConfig" (within imagePlace Image.settings)),
    ("gallery", .group "GalleryConfig" (within galleryPlace Gallery.settings)),
    ("builder", .group "BuilderConfig" (within builderPlace Builder.settings))]

/-- What a document must be to hold settings. -/
def shape : Shape := .record title (partShapes parts)

/-- The settings as a document. -/
def value (c : Config) : Value := partsValue parts c

/-- The settings that a document holds. -/
def ofValue (v : Value) : Config := putParts parts v {}

/-- Visits every text of the settings. -/
def mapTexts {m : Type → Type} [Monad m] (visit : String → m String) (c : Config) : m Config := do
  return { c with
    id := ← visit c.id
    tenantId := ← visit c.tenantId
    clientId := ← visit c.clientId
    subscriptionId := ← visit c.subscriptionId
    hashNS := ← visit c.hashNS
    values := ← Setting.mapNamed visit c.values
    storage := ← c.storage.mapTexts visit
    identity := ← c.identity.mapTexts visit
    machine := ← c.machine.mapTexts visit
    image := ← c.image.mapTexts visit
    gallery := ← c.gallery.mapTexts visit
    builder := ← c.builder.mapTexts visit }

instance : Texts Config where
  mapTexts := mapTexts

end Config

/-- Whether the settings say where files are uploaded to. -/
def Storage.isComplete (s : Storage) : Bool :=
  !(s.location.isEmpty || s.resourceGroup.isEmpty || s.accountName.isEmpty ||
    s.containerName.isEmpty)

end Stencil.Settings
