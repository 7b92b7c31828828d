import Maru.Logistics.ManifestCommands
import Maru.Logistics.Projection

/-!
# Runs of logistics commands

All commands of `logistics/services.py`, with the disposal of addresses, as one machine on
the store. A reachable state is one that a run from the empty store leads to.
-/

namespace Maru.Logistics

inductive Command
  | createLogisticsParty (input : PartyInput)
  | createRestrictedLogisticsAddress (input : AddressInput)
  | createLogisticsNode (input : NodeInput)
  | registerSerializedAsset (input : AssetInput)
  | registerStockLot (input : StockLotInput)
  | registerPhysicalKey (input : KeyInput)
  | createLogisticsLabel (input : LabelInput)
  | assignKeyholderResponsibility (input : KeyholderInput)
  | recordAssetAgreement (input : AgreementInput)
  | createReusableKit (input : KitInput)
  | createLogisticsManifest (input : ManifestInput)
  | addManifestLine (input : AddLineInput)
  | changeManifestState (input : ManifestStateInput)
  | ingestOfflineScanBatch (input : OfflineBatchInput)
  | submitEquipmentOffer (input : OfferInput)
  | withdrawEquipmentOffer (input : WithdrawOfferInput)
  | reviewEquipmentOffer (input : ReviewOfferInput)
  | recordLogisticsEvent (input : RecordEventInput)
  | recordManifestReceipt (input : ManifestReceiptInput)

def Store.submit (store : Store) (world : World) (lib : Primitives) (sur : Surroundings)
    (request : Request) : Command → Except LogisticsError (Store × LogisticsCommandResult)
  | .createLogisticsParty input => store.createLogisticsParty world lib sur request input
  | .createRestrictedLogisticsAddress input => store.createRestrictedLogisticsAddress world lib sur request input
  | .createLogisticsNode input => store.createLogisticsNode world lib sur request input
  | .registerSerializedAsset input => store.registerSerializedAsset world lib sur request input
  | .registerStockLot input => store.registerStockLot world lib sur request input
  | .registerPhysicalKey input => store.registerPhysicalKey world lib sur request input
  | .createLogisticsLabel input => store.createLogisticsLabel world lib sur request input
  | .assignKeyholderResponsibility input => store.assignKeyholderResponsibility world lib sur request input
  | .recordAssetAgreement input => store.recordAssetAgreement world lib sur request input
  | .createReusableKit input => store.createReusableKit world lib sur request input
  | .createLogisticsManifest input => store.createLogisticsManifest world lib sur request input
  | .addManifestLine input => store.addManifestLine world lib sur request input
  | .changeManifestState input => store.changeManifestState world lib sur request input
  | .ingestOfflineScanBatch input => store.ingestOfflineScanBatch world lib sur request input
  | .submitEquipmentOffer input => store.submitEquipmentOffer world lib sur request input
  | .withdrawEquipmentOffer input => store.withdrawEquipmentOffer world lib sur request input
  | .reviewEquipmentOffer input => store.reviewEquipmentOffer world lib sur request input
  | .recordLogisticsEvent input => store.recordLogisticsEvent world lib sur request input
  | .recordManifestReceipt input => store.recordManifestReceipt world lib sur request input

/-- One transaction, with what surrounds it. -/
inductive Operation
  | submit (sur : Surroundings) (request : Request) (command : Command)
  | dispose (sur : Surroundings) (organizationId : Uuid) (editionId : Option Uuid) (addressIds : List Uuid)

def Store.perform (store : Store) (world : World) (lib : Primitives) :
    Operation → Except LogisticsError (Store × Option LogisticsCommandResult)
  | .submit sur request command => do
    let (store, result) ← store.submit world lib sur request command
    return (store, some result)
  | .dispose sur organizationId editionId addressIds => do
    let store ← store.disposeExpiredRestrictedAddresses sur organizationId editionId addressIds
    return (store, none)

def logistics (world : World) (lib : Primitives) :
    Machine Store Operation (Option LogisticsCommandResult) LogisticsError where
  exec store operation := store.perform world lib operation

end Maru.Logistics
